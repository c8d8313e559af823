/-
# Keys

The keys that are held, under names whose case does not matter.  The space bar is known by its
character and by two words.
-/
import StageScript.Text.Lower

namespace StageScript

/-- The one name of a key: in lower case, and the character itself for the space bar. -/
def keyName (key : String) : String :=
  let name := String.ofList (Text.lower key.toList)
  if name = "space" ∨ name = "spacebar" then " " else name

/-- The keys that are held, by their names in ascending order. -/
structure Keys where
  held : List String
  deriving DecidableEq, Repr

namespace Keys

/-- No key is held. -/
def none : Keys := ⟨[]⟩

/-- Puts a name at its place in an ascending list. -/
def insertName (name : String) : List String → List String
  | [] => [name]
  | n :: ns => if name = n then n :: ns else if name < n then name :: n :: ns
      else n :: insertName name ns

/-- A key goes down. -/
def press (ks : Keys) (key : String) : Keys := ⟨insertName (keyName key) ks.held⟩

/-- A key goes up. -/
def release (ks : Keys) (key : String) : Keys := ⟨ks.held.filter (· != keyName key)⟩

/-- A key is held. -/
def isDown (ks : Keys) (key : String) : Bool := ks.held.contains (keyName key)

end Keys
end StageScript

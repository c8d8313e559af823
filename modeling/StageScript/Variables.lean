/-
# Variables

Numbers under names, kept in ascending order of the names.
-/

namespace StageScript

/-- Numbers under names, in ascending order of the names. -/
structure Variables where
  entries : List (String × Float)

namespace Variables

/-- No variables. -/
def empty : Variables := ⟨[]⟩

/-- The number of a name. -/
def get? (vs : Variables) (name : String) : Option Float :=
  (vs.entries.find? (·.1 == name)).map Prod.snd

/-- The name is declared. -/
def contains (vs : Variables) (name : String) : Bool := vs.entries.any (·.1 == name)

/-- Puts a number at the place of its name. -/
def setIn (name : String) (x : Float) : List (String × Float) → List (String × Float)
  | [] => [(name, x)]
  | p :: ps =>
    if p.1 = name then (name, x) :: ps
    else if name < p.1 then (name, x) :: p :: ps
    else p :: setIn name x ps

/-- Declares a variable or gives it another number. -/
def set (vs : Variables) (name : String) (x : Float) : Variables := ⟨setIn name x vs.entries⟩

/-- Gives a declared variable another number; nothing for an undeclared one. -/
def update? (vs : Variables) (name : String) (x : Float) : Option Variables :=
  if vs.contains name then some (vs.set name x) else none

end Variables
end StageScript

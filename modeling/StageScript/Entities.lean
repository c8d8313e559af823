/-
# Entities by name

The entities of a run in the order in which their names were declared, which is the order in
which they are painted.  A name that is declared again keeps its place.
-/
import StageScript.Entity

namespace StageScript

/-- Entities under their names, in the order of declaration. -/
structure Entities where
  entries : List (String × Entity)

namespace Entities

/-- No entities. -/
def empty : Entities := ⟨[]⟩

/-- The entity of a name. -/
def get? (es : Entities) (name : String) : Option Entity :=
  (es.entries.find? (·.1 == name)).map Prod.snd

/-- The name is declared. -/
def contains (es : Entities) (name : String) : Bool := es.entries.any (·.1 == name)

/-- Puts an entity in the place of the declared one. -/
def replace (es : Entities) (name : String) (e : Entity) : Entities :=
  ⟨es.entries.map fun p => if p.1 == name then (name, e) else p⟩

/-- Declares a name, or declares it again at its place. -/
def insert (es : Entities) (name : String) (e : Entity) : Entities :=
  if es.contains name then es.replace name e else ⟨es.entries ++ [(name, e)]⟩

/-- The names in the order of declaration. -/
def names (es : Entities) : List String := es.entries.map Prod.fst

/-- What the entities paint. -/
def paint (es : Entities) (ready : Ready) : List Paint :=
  es.entries.flatMap fun p => p.2.paint ready

end Entities
end StageScript

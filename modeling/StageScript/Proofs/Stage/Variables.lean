/-
# Variables under their names

What a new number does to the variables: the number stands under its name, every other name keeps
its own, and the names from before stay in their order.  None of this needs the names to be in
ascending order.
-/
import StageScript.Variables

namespace StageScript
namespace Variables

/-- The names in their order. -/
def names (vs : Variables) : List String := vs.entries.map Prod.fst

variable {vs : Variables} {name name' : String} {x : Float}

theorem contains_eq_isSome (vs : Variables) (name : String) :
    vs.contains name = (vs.get? name).isSome := by
  rw [contains, get?, Option.isSome_map, List.isSome_find?]

theorem find?_cons_of_ne {p : String × Float} (h : p.1 ≠ name) (ps : List (String × Float)) :
    (p :: ps).find? (·.1 == name) = ps.find? (·.1 == name) := by
  simp [h]

theorem find?_setIn (name name' : String) (x : Float) (ps : List (String × Float)) :
    (setIn name x ps).find? (·.1 == name')
      = if name' = name then some (name, x) else ps.find? (·.1 == name') := by
  by_cases heq : name' = name
  · subst heq
    rw [if_pos rfl]
    induction ps with
    | nil => simp [setIn]
    | cons p ps ih =>
      unfold setIn
      split
      · simp
      · rename_i hp
        split
        · simp
        · rw [find?_cons_of_ne hp, ih]
  · rw [if_neg heq]
    have hnew : (name, x).1 ≠ name' := Ne.symm heq
    induction ps with
    | nil => exact find?_cons_of_ne hnew []
    | cons p ps ih =>
      unfold setIn
      split
      · rename_i hp
        have hold : p.1 ≠ name' := by rwa [hp]
        rw [find?_cons_of_ne hnew, find?_cons_of_ne hold]
      · split
        · exact find?_cons_of_ne hnew _
        · rw [List.find?_cons, List.find?_cons, ih]

theorem get?_set (vs : Variables) (name name' : String) (x : Float) :
    (vs.set name x).get? name' = if name' = name then some x else vs.get? name' := by
  rw [get?, set, find?_setIn]
  split
  · rfl
  · rfl

theorem get?_set_of_ne (h : name' ≠ name) : (vs.set name x).get? name' = vs.get? name' := by
  rw [get?_set, if_neg h]

theorem sublist_setIn (name : String) (x : Float) (ps : List (String × Float)) :
    (ps.map Prod.fst).Sublist ((setIn name x ps).map Prod.fst) := by
  induction ps with
  | nil => exact List.nil_sublist _
  | cons p ps ih =>
    unfold setIn
    split
    · rename_i hp
      subst hp
      exact List.Sublist.refl _
    · split
      · exact List.sublist_cons_self _ _
      · exact ih.cons_cons _

/-- No name is lost, and the names keep their order. -/
theorem names_sublist_set (vs : Variables) (name : String) (x : Float) :
    vs.names.Sublist (vs.set name x).names :=
  sublist_setIn name x vs.entries

end Variables
end StageScript

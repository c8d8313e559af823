/-
# Entities under their names

What a declaration and a change of an entity do to the entities of a scene: which entries there
are behind it, which entity stands under each name, and what the entities paint, one stroke for
each of them that is shown.

Assignments to properties and rotations are one thing: the entity of a name is replaced by what
the change makes of it, if it is there and admits the change (`Scene.alter`).
-/
import StageScript.Scene

namespace StageScript

/-! ## 1. Entries and names -/

namespace Entities

variable {es : Entities} {name name' : String} {e e' : Entity} {p : String × Entity}

theorem contains_iff : es.contains name = true ↔ name ∈ es.names := by
  simp [contains, names]

theorem contains_eq_isSome (es : Entities) (name : String) :
    es.contains name = (es.get? name).isSome := by
  rw [contains, get?, Option.isSome_map, List.isSome_find?]

@[simp] theorem names_replace (es : Entities) (name : String) (e : Entity) :
    (es.replace name e).names = es.names := by
  simp only [names, replace, List.map_map]
  refine List.map_congr_left fun p _ => ?_
  by_cases hp : p.1 = name
  · simp [hp]
  · simp [hp]

theorem names_insert (es : Entities) (name : String) (e : Entity) :
    (es.insert name e).names = if name ∈ es.names then es.names else es.names ++ [name] := by
  unfold insert
  by_cases hname : name ∈ es.names
  · rw [if_pos (contains_iff.mpr hname), if_pos hname, names_replace]
  · rw [if_neg (mt contains_iff.mp hname), if_neg hname]
    simp [names]

theorem mem_of_get? (h : es.get? name = some e) : (name, e) ∈ es.entries := by
  obtain ⟨⟨name', e'⟩, hfind, rfl⟩ := Option.map_eq_some_iff.mp h
  have hname : name' = name := by simpa using List.find?_some hfind
  subst hname
  exact List.mem_of_find?_eq_some hfind

theorem get?_of_mem (hnodup : es.names.Nodup) (h : (name, e) ∈ es.entries) :
    es.get? name = some e := by
  obtain ⟨before, behind, heq⟩ := List.append_of_mem h
  rw [names, heq, List.map_append, List.map_cons] at hnodup
  have hbefore : ∀ p ∈ before, p.1 ≠ name := by
    intro p hp heq
    have hdisjoint := (List.nodup_append.mp hnodup).2.2
    exact hdisjoint _ (List.mem_map_of_mem hp) name List.mem_cons_self heq
  have hnone : before.find? (·.1 == name) = none := by
    rw [List.find?_eq_none]
    intro p hp
    simpa using hbefore p hp
  simp [get?, heq, List.find?_append, hnone]

theorem mem_replace (h : p ∈ (es.replace name e).entries) : p = (name, e) ∨ p ∈ es.entries := by
  obtain ⟨q, hq, rfl⟩ := List.mem_map.mp h
  split
  · exact Or.inl rfl
  · exact Or.inr hq

theorem mem_insert (h : p ∈ (es.insert name e).entries) : p = (name, e) ∨ p ∈ es.entries := by
  unfold insert at h
  split at h
  · exact mem_replace h
  · rcases List.mem_append.mp h with h | h
    · exact Or.inr h
    · exact Or.inl (List.mem_singleton.mp h)

/-- No entry has a name that is not declared. -/
theorem find?_eq_none_iff :
    es.entries.find? (·.1 == name) = none ↔ ¬ es.contains name = true := by
  rw [List.find?_eq_none, contains, List.any_eq_true, not_exists]
  simp only [not_and]

/-- Another entity under one of the names. -/
theorem get?_replace (es : Entities) (name name' : String) (e : Entity) :
    (es.replace name e).get? name'
      = if name' = name then (es.get? name).map fun _ => e else es.get? name' := by
  have hname : ∀ q : String × Entity,
      ((if q.1 == name then (name, e) else q).1 == name') = (q.1 == name') := by
    intro q
    by_cases hq : q.1 = name
    · simp [hq]
    · simp [hq]
  rw [get?, replace, List.find?_map]
  simp only [Function.comp_def, hname, get?]
  by_cases heq : name' = name
  · subst heq
    rw [if_pos rfl]
    cases hfind : es.entries.find? (·.1 == name') with
    | none => rfl
    | some q =>
      have hq : q.1 = name' := by simpa using List.find?_some hfind
      simp [hq]
  · rw [if_neg heq]
    cases hfind : es.entries.find? (·.1 == name') with
    | none => rfl
    | some q =>
      have hq : q.1 = name' := by simpa using List.find?_some hfind
      simp [hq, heq]

theorem get?_insert (es : Entities) (name name' : String) (e : Entity) :
    (es.insert name e).get? name' = if name' = name then some e else es.get? name' := by
  unfold insert
  split
  · rename_i hcontains
    rw [get?_replace, get?]
    cases hfind : es.entries.find? (·.1 == name) with
    | none => exact absurd hcontains (find?_eq_none_iff.mp hfind)
    | some q => rfl
  · rename_i hnew
    have hfind : es.entries.find? (·.1 == name) = none := find?_eq_none_iff.mpr hnew
    by_cases heq : name' = name
    · subst heq
      simp [get?, List.find?_append, hfind]
    · simp [get?, List.find?_append, Ne.symm heq, heq]

theorem get?_replace_of_ne (h : name' ≠ name) : (es.replace name e).get? name' = es.get? name' := by
  rw [get?_replace, if_neg h]

theorem get?_insert_of_ne (h : name' ≠ name) : (es.insert name e).get? name' = es.get? name' := by
  rw [get?_insert, if_neg h]

/-- The names that were there come first, in their order. -/
theorem names_prefix_insert (es : Entities) (name : String) (e : Entity) :
    es.names <+: (es.insert name e).names := by
  rw [names_insert]
  split
  · exact List.prefix_refl _
  · exact List.prefix_append _ _

end Entities

/-! ## 2. What is painted -/

namespace Entity

/-- The stroke of an entity. -/
def stroke : Entity → Paint
  | box x y w h c r => .rect x y w h r c
  | image x y w h a => .image a x y w h
  | label x y t s c f => .text t x y s f c

/-- The entity is shown on a surface: a picture is when the surface has it ready. -/
def isShown (ready : Ready) : Entity → Bool
  | image _ _ _ _ a => ready a
  | _ => true

theorem paint_eq (ready : Ready) (e : Entity) :
    e.paint ready = if e.isShown ready then [e.stroke] else [] := by
  cases e <;> rfl

end Entity

/-- The entities paint one stroke for each of them that is shown, in their order. -/
theorem Entities.paint_eq (es : Entities) (ready : Ready) :
    es.paint ready = (es.entries.filter (·.2.isShown ready)).map (·.2.stroke) := by
  rw [paint]
  induction es.entries with
  | nil => rfl
  | cons p ps ih =>
    rw [List.flatMap_cons, ih, Entity.paint_eq, List.filter_cons]
    cases p.2.isShown ready <;> rfl

/-! ## 3. The change of one entity -/

namespace Scene

variable {s : Scene} {name : String} {f : Entity → Except PropertyError Entity}

/-- The scene with a change of the entity of a name. -/
def alter (s : Scene) (name : String) (f : Entity → Except PropertyError Entity) : Scene :=
  match s.entities.get? name with
  | none => s
  | some e =>
    match f e with
    | .ok e' => { s with entities := s.entities.replace name e' }
    | .error _ => s

/-- What is altered, if anything is. -/
theorem cases_alter (s : Scene) (name : String) (f : Entity → Except PropertyError Entity) :
    (∃ e e', s.entities.get? name = some e ∧ f e = .ok e'
        ∧ s.alter name f = { s with entities := s.entities.replace name e' })
      ∨ (∀ e, s.entities.get? name = some e → ∃ c, f e = .error c) ∧ s.alter name f = s := by
  unfold alter
  cases hget : s.entities.get? name with
  | none => exact .inr ⟨by simp, rfl⟩
  | some e =>
    cases hf : f e with
    | ok e' => exact .inl ⟨e, e', rfl, hf, by simp only [hf]⟩
    | error c =>
      refine .inr ⟨?_, by simp only [hf]⟩
      intro e' he'
      obtain rfl := Option.some.inj he'
      exact ⟨c, hf⟩

theorem setProperty_scene (s : Scene) (line : Nat) (name property : String) (v : PropertyValue) :
    (s.setProperty line name property v).scene
      = s.alter name fun e => (s.withProperty line e property v).1 := by
  simp only [setProperty, alter]
  cases s.entities.get? name with
  | none => rfl
  | some e =>
    simp only
    rcases s.withProperty line e property v with ⟨⟨_ | _⟩ | e', shown, notes⟩ <;> rfl

theorem rotate_scene (s : Scene) (line : Nat) (name : String) (degrees : Float) :
    (s.perform line (.rotate name degrees)).scene = s.alter name (·.rotate degrees) := by
  simp only [perform, alter]
  cases s.entities.get? name with
  | none => rfl
  | some e =>
    simp only
    cases e.rotate degrees <;> rfl

end Scene

end StageScript

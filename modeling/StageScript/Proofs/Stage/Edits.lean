/-
# What became of the entities

The entities of a scene are a list of entries that is changed in place.  Here the same is told by
a log: one edit for every entity that is declared, and one for every change of an entity that a
statement asks for (`Scene.edit?`).  The log knows neither places nor entries.

What the log says about the entities needs no replay.  The names are those that were declared, in
the order of their first declarations (`Edit.firstDeclared`).  The entity of a name is the one
that was declared last, with the last number of each slot, the last color and the last text that
it was given since, turned by the sum of the rotations since (`Edit.Latest`).

Carrying statements out keeps the entities as the log tells (`tells_of_runAll`).
-/
import Mathlib.Data.List.Induction
import Mathlib.Data.List.Nodup
import StageScript.Proofs.Stage.Entities
import StageScript.Proofs.Stage.Frame

namespace StageScript

/-! ## 1. Logs -/

/-- A change of an entity that a statement asks for. -/
inductive Alteration where
  | number (property : String) (x : Float)
  | color (c : Color)
  | text (t : String)
  | turn (degrees : Float)

/-- What happens to the entities. -/
inductive Edit where
  | declared (name : String) (e : Entity)
  | altered (name : String) (a : Alteration)

namespace Alteration

/-- The number that a slot is given. -/
def number? (s : Entity.Slot) : Alteration → Option Float
  | number property x => if Entity.Slot.ofName? property = some s then some x else none
  | _ => none

/-- The color that is given. -/
def color? : Alteration → Option Color
  | color c => some c
  | _ => none

/-- The text that is given. -/
def text? : Alteration → Option String
  | text t => some t
  | _ => none

/-- The degrees of a rotation. -/
def turn? : Alteration → Option Float
  | turn degrees => some degrees
  | _ => none

/-- The entity behind the change, if it admits the change. -/
def apply (e : Entity) : Alteration → Except PropertyError Entity
  | number property x => e.setNumber property x
  | color c => e.setColor c
  | text t => e.setText t
  | turn degrees => e.rotate degrees

/-- The entity behind the change. -/
def onto (e : Entity) (a : Alteration) : Entity :=
  match a.apply e with
  | .ok e' => e'
  | .error _ => e

end Alteration

namespace Entity

/-- The color of a box or a label. -/
def color? : Entity → Option Color
  | box _ _ _ _ c _ => some c
  | label _ _ _ _ c _ => some c
  | image _ _ _ _ _ => none

/-- The text of a label. -/
def text? : Entity → Option String
  | label _ _ t _ _ _ => some t
  | _ => none

/-- The size and the font of a label. -/
def lettering? : Entity → Option (Float × String)
  | label _ _ _ size _ font => some (size, font)
  | _ => none

/-- The picture of an entity. -/
def asset? : Entity → Option Asset
  | image _ _ _ _ a => some a
  | _ => none

/-- The entity is another one behind changes: every value is the last one that it was given, or
else as it was; rotations add up; and what no change reaches is the same. -/
structure Behind (changes : List Alteration) (e₀ e : Entity) : Prop where
  slot : ∀ s, e.slot? s = (e₀.slot? s).map (changes.filterMap (·.number? s)).getLastD
  color : e.color? = e₀.color?.map (changes.filterMap Alteration.color?).getLastD
  text : e.text? = e₀.text?.map (changes.filterMap Alteration.text?).getLastD
  rotation : e.rotation? = e₀.rotation?.map fun r =>
    (changes.filterMap Alteration.turn?).foldl (· + ·) r
  lettering : e.lettering? = e₀.lettering?
  asset : e.asset? = e₀.asset?

end Entity

namespace Edit

/-- The name that is declared. -/
def name? : Edit → Option String
  | declared name _ => some name
  | altered _ _ => none

/-- The change of the entity of a name. -/
def alteration? (name : String) : Edit → Option Alteration
  | altered name' a => if name' = name then some a else none
  | declared _ _ => none

/-- The names in the order of their first declarations. -/
def firstDeclared (log : List Edit) : List String := (log.filterMap name?).eraseDups

/-- The entity that a name stands for at the end of a log: the one that was declared last, behind
all changes since. -/
def Latest (log : List Edit) (name : String) (e : Entity) : Prop :=
  ∃ before e₀ behind, log = before ++ .declared name e₀ :: behind ∧
    (∀ edit ∈ behind, edit.name? ≠ some name) ∧
    Entity.Behind (behind.filterMap (alteration? name)) e₀ e

end Edit

/-! ## 2. An entity behind its changes -/

theorem getLastD_filterMap_concat {α β : Type} (f : α → Option β) (l : List α) (a : α) (x : β) :
    ((l ++ [a]).filterMap f).getLastD x = (f a).getD ((l.filterMap f).getLastD x) := by
  rw [List.filterMap_append]
  cases hf : f a with
  | none => simp [hf]
  | some y => simp [hf]

namespace Entity

variable {e₀ e e' : Entity} {changes : List Alteration}

/-- What the slots hold behind a change of one of them. -/
theorem slot?_of_setSlot {s : Slot} {v : Float} (h : e.setSlot? v s = some e') (s' : Slot) :
    e'.slot? s' = if s = s' then some v else e.slot? s' := by
  cases e <;> cases s <;> simp only [setSlot?, Option.some.injEq, reduceCtorEq] at h
  all_goals
    subst h
    cases s' <;> rfl

theorem isSome_slot?_of_setSlot {s : Slot} {v : Float} (h : e.setSlot? v s = some e') :
    (e.slot? s).isSome = true := by
  cases e <;> cases s <;> simp only [setSlot?, reduceCtorEq] at h
  all_goals rfl

theorem slot?_of_setSlot_none {s : Slot} {v : Float} (h : e.setSlot? v s = none) :
    e.slot? s = none := by
  cases e <;> cases s <;> simp only [setSlot?, reduceCtorEq] at h
  all_goals rfl

/-- A change of a slot changes nothing else. -/
theorem views_of_setSlot {s : Slot} {v : Float} (h : e.setSlot? v s = some e') :
    e'.color? = e.color? ∧ e'.text? = e.text? ∧ e'.rotation? = e.rotation? ∧
      e'.lettering? = e.lettering? ∧ e'.asset? = e.asset? := by
  cases e <;> cases s <;> simp only [setSlot?, Option.some.injEq, reduceCtorEq] at h
  all_goals
    subst h
    exact ⟨rfl, rfl, rfl, rfl, rfl⟩

theorem onto_number (e : Entity) (property : String) (x : Float) :
    Alteration.onto e (.number property x)
      = ((Slot.ofName? property).bind fun s => e.setSlot? x s).getD e := by
  simp only [Alteration.onto, Alteration.apply, setNumber]
  cases Slot.ofName? property with
  | none => rfl
  | some s =>
    simp only [Option.bind_some]
    cases e.setSlot? x s <;> rfl

theorem slot?_onto (e : Entity) (a : Alteration) (s : Slot) :
    (a.onto e).slot? s = (e.slot? s).map fun x => (a.number? s).getD x := by
  cases a with
  | number property x =>
    rw [onto_number, Alteration.number?]
    cases hname : Slot.ofName? property with
    | none => simp
    | some s' =>
      simp only [Option.bind_some, Option.some.injEq]
      cases hset : e.setSlot? x s' with
      | none =>
        have hnone := slot?_of_setSlot_none hset
        by_cases hs : s' = s
        · simp [← hs, hnone]
        · simp [hs]
      | some e' =>
        simp only [Option.getD_some]
        rw [slot?_of_setSlot hset]
        by_cases hs : s' = s
        · subst hs
          obtain ⟨y, hy⟩ := Option.isSome_iff_exists.mp (isSome_slot?_of_setSlot hset)
          simp [hy]
        · simp [hs]
  | color c => cases e <;> cases s <;> rfl
  | text t => cases e <;> cases s <;> rfl
  | turn degrees => cases e <;> cases s <;> rfl

/-- What a change does to the other values. -/
theorem views_onto (e : Entity) (a : Alteration) :
    (a.onto e).color? = e.color?.map (a.color?.getD ·) ∧
      (a.onto e).text? = e.text?.map (a.text?.getD ·) ∧
      (a.onto e).rotation? = e.rotation?.map (a.turn?.toList.foldl (· + ·) ·) ∧
      (a.onto e).lettering? = e.lettering? ∧ (a.onto e).asset? = e.asset? := by
  cases a with
  | number property x =>
    rw [onto_number]
    cases hset : (Slot.ofName? property).bind fun s => e.setSlot? x s with
    | none => cases e <;> exact ⟨rfl, rfl, rfl, rfl, rfl⟩
    | some e' =>
      obtain ⟨s, -, hset⟩ := Option.bind_eq_some_iff.mp hset
      obtain ⟨hcolor, htext, hrotation, hlettering, hasset⟩ := views_of_setSlot hset
      rw [Option.getD_some, hcolor, htext, hrotation, hlettering, hasset]
      cases e <;> exact ⟨rfl, rfl, rfl, rfl, rfl⟩
  | color c => cases e <;> exact ⟨rfl, rfl, rfl, rfl, rfl⟩
  | text t => cases e <;> exact ⟨rfl, rfl, rfl, rfl, rfl⟩
  | turn degrees => cases e <;> exact ⟨rfl, rfl, rfl, rfl, rfl⟩

theorem Behind.nil (e : Entity) : Behind [] e e := by
  have hsame : ∀ {α : Type} (x? : Option α), x? = x?.map [].getLastD := by
    intro α x?
    cases x? <;> rfl
  exact ⟨fun s => hsame _, hsame _, hsame _, by simp, rfl, rfl⟩

/-- One more change. -/
theorem Behind.concat (h : Behind changes e₀ e) (a : Alteration) :
    Behind (changes ++ [a]) e₀ (a.onto e) := by
  obtain ⟨hcolor, htext, hrotation, hlettering, hasset⟩ := views_onto e a
  constructor
  · intro s
    rw [slot?_onto, h.slot, Option.map_map]
    refine Option.map_congr fun x _ => ?_
    exact (getLastD_filterMap_concat _ _ a x).symm
  · rw [hcolor, h.color, Option.map_map]
    refine Option.map_congr fun c _ => ?_
    exact (getLastD_filterMap_concat _ _ a c).symm
  · rw [htext, h.text, Option.map_map]
    refine Option.map_congr fun t _ => ?_
    exact (getLastD_filterMap_concat _ _ a t).symm
  · rw [hrotation, h.rotation, Option.map_map]
    refine Option.map_congr fun r _ => ?_
    rw [List.filterMap_append, List.foldl_append]
    cases hturn : a.turn? <;> simp [hturn]
  · exact hlettering.trans h.lettering
  · exact hasset.trans h.asset

/-- Nothing about the entity is left open. -/
theorem Behind.unique (h : Behind changes e₀ e) (h' : Behind changes e₀ e') : e = e' := by
  have hslot : ∀ s, e.slot? s = e'.slot? s := fun s => (h.slot s).trans (h'.slot s).symm
  have hx := hslot .x
  have hy := hslot .y
  have hw := hslot .w
  have hh := hslot .h
  have hcolor := h.color.trans h'.color.symm
  have htext := h.text.trans h'.text.symm
  have hrotation := h.rotation.trans h'.rotation.symm
  have hlettering := h.lettering.trans h'.lettering.symm
  have hasset := h.asset.trans h'.asset.symm
  cases e <;> cases e' <;> simp_all [slot?, color?, text?, rotation?, lettering?, asset?]

end Entity

/-! ## 3. Logs that grow -/

theorem eraseDups_concat (names : List String) (name : String) :
    (names ++ [name]).eraseDups
      = if name ∈ names then names.eraseDups else names.eraseDups ++ [name] := by
  rw [List.eraseDups_append]
  by_cases hname : name ∈ names
  · simp [hname, List.removeAll]
  · simp [hname, List.removeAll, List.eraseDups_cons]

theorem nodup_eraseDups (names : List String) : names.eraseDups.Nodup := by
  induction names using List.reverseRecOn with
  | nil => exact List.nodup_nil
  | append_singleton names name ih =>
    rw [eraseDups_concat]
    split
    · exact ih
    · rename_i hname
      refine List.nodup_append.mpr ⟨ih, List.nodup_singleton name, ?_⟩
      intro a ha b hb
      obtain rfl := List.mem_singleton.mp hb
      rintro rfl
      exact hname (List.mem_eraseDups.mp ha)

namespace Edit

variable {log : List Edit} {name name' : String} {e e' : Entity} {a : Alteration}

theorem firstDeclared_concat_declared (log : List Edit) (name : String) (e : Entity) :
    firstDeclared (log ++ [.declared name e])
      = if name ∈ firstDeclared log then firstDeclared log else firstDeclared log ++ [name] := by
  have hlog : (log ++ [Edit.declared name e]).filterMap name? = log.filterMap name? ++ [name] :=
    List.filterMap_append
  rw [firstDeclared, hlog, eraseDups_concat]
  simp only [firstDeclared, List.mem_eraseDups]

@[simp] theorem firstDeclared_concat_altered (log : List Edit) (name : String) (a : Alteration) :
    firstDeclared (log ++ [.altered name a]) = firstDeclared log := by
  have hlog : (log ++ [Edit.altered name a]).filterMap name? = log.filterMap name? := by
    rw [List.filterMap_append]
    exact List.append_nil _
  rw [firstDeclared, hlog, firstDeclared]

theorem Latest.of_declared (log : List Edit) (name : String) (e : Entity) :
    Latest (log ++ [.declared name e]) name e :=
  ⟨log, e, [], rfl, by simp, .nil e⟩

/-- A declaration of another name. -/
theorem Latest.declared (h : Latest log name e) (hne : name' ≠ name) (e' : Entity) :
    Latest (log ++ [.declared name' e']) name e := by
  obtain ⟨before, e₀, behind, rfl, hlast, hbehind⟩ := h
  refine ⟨before, e₀, behind ++ [.declared name' e'], by simp, ?_, ?_⟩
  · refine List.forall_mem_append.mpr ⟨hlast, List.forall_mem_singleton.mpr ?_⟩
    simpa [name?] using hne
  · rw [List.filterMap_append]
    simpa [List.filterMap_cons, alteration?] using hbehind

/-- A change of the entity. -/
theorem Latest.changed (h : Latest log name e) (a : Alteration) :
    Latest (log ++ [.altered name a]) name (a.onto e) := by
  obtain ⟨before, e₀, behind, rfl, hlast, hbehind⟩ := h
  refine ⟨before, e₀, behind ++ [.altered name a], by simp, ?_, ?_⟩
  · exact List.forall_mem_append.mpr ⟨hlast, List.forall_mem_singleton.mpr (by simp [name?])⟩
  · have hchanges : (behind ++ [Edit.altered name a]).filterMap (alteration? name)
        = behind.filterMap (alteration? name) ++ [a] := by
      simp [alteration?]
    rw [hchanges]
    exact hbehind.concat a

/-- A change of another entity. -/
theorem Latest.altered (h : Latest log name e) (hne : name' ≠ name) (a : Alteration) :
    Latest (log ++ [.altered name' a]) name e := by
  obtain ⟨before, e₀, behind, rfl, hlast, hbehind⟩ := h
  refine ⟨before, e₀, behind ++ [.altered name' a], by simp, ?_, ?_⟩
  · exact List.forall_mem_append.mpr ⟨hlast, List.forall_mem_singleton.mpr (by simp [name?])⟩
  · simpa [List.filterMap_cons, alteration?, hne] using hbehind

/-- A log has one last declaration of a name. -/
theorem declaration_unique {before before' behind behind' : List Edit}
    (h : before ++ .declared name e :: behind = before' ++ .declared name e' :: behind')
    (hlast : ∀ edit ∈ behind, edit.name? ≠ some name)
    (hlast' : ∀ edit ∈ behind', edit.name? ≠ some name) : e = e' ∧ behind = behind' := by
  rcases List.append_eq_append_iff.mp h with ⟨between, -, htail⟩ | ⟨between, -, htail⟩
  · cases between with
    | nil => simpa using htail
    | cons edit between =>
      obtain ⟨-, hbehind⟩ := List.cons.inj htail
      have hmem : Edit.declared name e' ∈ behind := by simp [hbehind]
      exact absurd rfl (hlast _ hmem)
  · cases between with
    | nil =>
      obtain ⟨hedit, hbehind⟩ := List.cons.inj htail
      exact ⟨(Edit.declared.inj hedit).2.symm, hbehind.symm⟩
    | cons edit between =>
      obtain ⟨-, hbehind⟩ := List.cons.inj htail
      have hmem : Edit.declared name e ∈ behind' := by simp [hbehind]
      exact absurd rfl (hlast' _ hmem)

/-- A log says everything about the entity of a name. -/
theorem Latest.unique (h : Latest log name e) (h' : Latest log name e') : e = e' := by
  obtain ⟨before, e₀, behind, hlog, hlast, hbehind⟩ := h
  obtain ⟨before', e₁, behind', hlog', hlast', hbehind'⟩ := h'
  obtain ⟨rfl, rfl⟩ := declaration_unique (hlog.symm.trans hlog') hlast hlast'
  exact hbehind.unique hbehind'

/-- The entities are as the log tells. -/
structure Tells (log : List Edit) (es : Entities) : Prop where
  names : es.names = firstDeclared log
  latest : ∀ name e, es.get? name = some e → Latest log name e

namespace Tells

variable {es : Entities}

theorem nil : Tells [] .empty := ⟨rfl, fun _ _ h => by simp [Entities.get?, Entities.empty] at h⟩

theorem declared (h : Tells log es) (name : String) (e : Entity) :
    Tells (log ++ [.declared name e]) (es.insert name e) := by
  constructor
  · rw [Entities.names_insert, firstDeclared_concat_declared, h.names]
  · intro name' e' hget
    rw [Entities.get?_insert] at hget
    split at hget
    · rename_i heq
      obtain rfl := Option.some.inj hget
      subst heq
      exact .of_declared log name' e
    · rename_i hne
      exact (h.latest name' e' hget).declared (Ne.symm hne) e

/-- A change that the entity admits. -/
theorem altered (h : Tells log es) (hget : es.get? name = some e) (ha : a.apply e = .ok e') :
    Tells (log ++ [.altered name a]) (es.replace name e') := by
  have honto : a.onto e = e' := by rw [Alteration.onto, ha]
  constructor
  · rw [Entities.names_replace, firstDeclared_concat_altered, h.names]
  · intro name' e₁ hget'
    rw [Entities.get?_replace, hget] at hget'
    split at hget'
    · rename_i heq
      obtain rfl : e' = e₁ := Option.some.inj hget'
      subst heq
      rw [← honto]
      exact (h.latest name' e hget).changed a
    · rename_i hne
      exact (h.latest name' e₁ hget').altered (Ne.symm hne) a

/-- A change that the entity does not admit, or a change of an entity that is not there. -/
theorem refused (h : Tells log es)
    (ha : ∀ e, es.get? name = some e → ∃ c, a.apply e = .error c) :
    Tells (log ++ [.altered name a]) es := by
  constructor
  · rw [firstDeclared_concat_altered, h.names]
  · intro name' e hget
    by_cases heq : name' = name
    · subst heq
      obtain ⟨c, hc⟩ := ha e hget
      have honto : a.onto e = e := by rw [Alteration.onto, hc]
      have hchanged := (h.latest name' e hget).changed a
      rwa [honto] at hchanged
    · exact (h.latest name' e hget).altered (Ne.symm heq) a

/-- No edit at all. -/
theorem of_none {edit? : Option Edit} (h : Tells log es) (hnone : edit? = none) :
    Tells (log ++ edit?.toList) es := by
  rw [hnone]
  simpa using h

theorem nodup (h : Tells log es) : es.names.Nodup := by
  rw [h.names]
  exact nodup_eraseDups _

/-- Every entry holds the entity that the log tells of its name. -/
theorem latest_of_mem (h : Tells log es) {p : String × Entity} (hp : p ∈ es.entries) :
    Latest log p.1 p.2 :=
  h.latest p.1 p.2 (Entities.get?_of_mem h.nodup hp)

end Tells

end Edit

/-! ## 4. The edits of statements -/

namespace Scene

open Edit (Tells)

/-- The entity that a declaration makes, if it makes one: no picture without its asset, and no
entity out of a number. -/
def declared? (s : Scene) (line : Nat) : Declaration → Option Entity
  | .box x y w h =>
    some (.box (s.value line x).1 (s.value line y).1 (s.value line w).1 (s.value line h).1
      s.activeColor 0)
  | .image path position w h =>
    (s.findAsset .picture path).toOption.map fun asset =>
      .image (s.place line position).1.1 (s.place line position).1.2 (s.value line w).1
        (s.value line h).1 asset
  | .text text position size color font =>
    some (.label (s.place line position).1.1 (s.place line position).1.2 text
      (s.value line size).1 (.resolve color) font)
  | .random _ | .number _ => none

/-- The change that an assignment to a property asks for. -/
def alteration? (s : Scene) (line : Nat) (property : String) : PropertyValue → Option Alteration
  | .number source => some (.number property (s.sourceValue line source).1)
  | .color token => some (.color (.resolve token))
  | .text text => some (.text text)
  | .unknown _ => none

/-- The edit of an action. -/
def edit? (s : Scene) (line : Nat) : Action → Option Edit
  | .declare name d => (s.declared? line d).map (.declared name)
  | .setProperty name property v => (s.alteration? line property v).map (.altered name)
  | .rotate name degrees => some (.altered name (.turn degrees))
  | _ => none

/-- The edits of a command. -/
def edits (s : Scene) (line : Nat) : Command → List Edit
  | .act a => (s.edit? line a).toList
  | .on (.key key) c => if s.keys.isDown key then s.edits line c else []
  | .on .click _ => []
  | .on (.every _) _ => []

variable {s : Scene} {line : Nat} {log : List Edit}

theorem tells_declare (h : Tells log s.entities) (name : String) (d : Declaration) :
    Tells (log ++ (s.edit? line (.declare name d)).toList)
      (s.declare line name d).scene.entities := by
  cases d with
  | box x y w h' => exact h.declared name _
  | image path position w h' =>
    simp only [declare, edit?, declared?]
    cases s.findAsset .picture path with
    | error c => exact h.of_none rfl
    | ok asset => exact h.declared name _
  | text text position size color font => exact h.declared name _
  | random range => exact h.of_none rfl
  | number e => exact h.of_none rfl

theorem withProperty_fst (s : Scene) (line : Nat) (e : Entity) (property : String)
    (v : PropertyValue) :
    (s.withProperty line e property v).1 = match s.alteration? line property v with
      | some a => a.apply e
      | none => .error .unknown := by
  cases v <;> rfl

/-- The change of an entity goes into the log, whether the entity is there and admits it or not. -/
theorem tells_alter (h : Tells log s.entities) (name : String) (a : Alteration) :
    Tells (log ++ [.altered name a]) (s.alter name fun e => a.apply e).entities := by
  rcases s.cases_alter name fun e => a.apply e with ⟨e, e', hget, ha, halter⟩ | ⟨hno, halter⟩
  · rw [halter]
    exact h.altered hget ha
  · rw [halter]
    exact h.refused hno

theorem tells_setProperty (h : Tells log s.entities) (name property : String)
    (v : PropertyValue) :
    Tells (log ++ (s.edit? line (.setProperty name property v)).toList)
      (s.setProperty line name property v).scene.entities := by
  simp only [setProperty_scene, withProperty_fst, edit?]
  cases s.alteration? line property v with
  | some a => exact tells_alter h name a
  | none =>
    refine .of_none ?_ rfl
    rcases s.cases_alter name fun _ => .error .unknown with ⟨e, e', -, hno, -⟩ | ⟨-, halter⟩
    · simp at hno
    · rw [halter]
      exact h

theorem tells_rotate (h : Tells log s.entities) (name : String) (degrees : Float) :
    Tells (log ++ [.altered name (.turn degrees)])
      (s.perform line (.rotate name degrees)).scene.entities := by
  rw [rotate_scene]
  exact tells_alter h name (.turn degrees)

theorem addStroke_entities (s : Scene) (p : Paint) : (s.addStroke p).entities = s.entities := by
  unfold addStroke
  split <;> rfl

/-- **Behind an action the entities are as the log tells with its edit.** -/
theorem tells_perform (h : Tells log s.entities) (a : Action) :
    Tells (log ++ (s.edit? line a).toList) (s.perform line a).scene.entities := by
  cases a with
  | declare name d => exact tells_declare h name d
  | setProperty name property v => exact tells_setProperty h name property v
  | rotate name degrees => exact tells_rotate h name degrees
  | say text => exact h.of_none rfl
  | setColor token => exact h.of_none rfl
  | setBackground token => exact h.of_none rfl
  | random range => exact h.of_none rfl
  | drawCircle center radius =>
    refine .of_none ?_ rfl
    exact (s.addStroke_entities _).symm ▸ h
  | drawLine start finish width =>
    refine .of_none ?_ rfl
    exact (s.addStroke_entities _).symm ▸ h
  | playSound path =>
    simp only [perform]
    split <;> exact h.of_none rfl
  | assign name source =>
    simp only [perform]
    split <;> exact h.of_none rfl
  | add name amount =>
    simp only [perform]
    split <;> exact h.of_none rfl

end Scene

namespace Stage

open Edit (Tells)

/-- The edits of statements, each on the stage that those before it leave. -/
def edits : List Statement → Stage → List Edit
  | [], _ => []
  | st :: sts, s =>
    s.scene.edits st.line st.command ++
      match s.run st with
      | .ok s => edits sts s
      | .error _ => []

theorem Executed.tells {line : Nat} {c : Command} {s s' : Stage}
    {result : Except RunError (Option Float)} {log : List Edit} (h : Executed line c s s' result)
    (hs : Tells log s.scene.entities) :
    Tells (log ++ s.scene.edits line c) s'.scene.entities := by
  induction h with
  | act a s => exact Scene.tells_perform hs a
  | listen c s | refused c s _ | register _ _ =>
    rw [Scene.edits, List.append_nil]
    exact hs
  | @up key c s hup =>
    have hedits : s.scene.edits line (.on (.key key) c) = [] := if_neg (by simp [hup])
    rw [hedits, List.append_nil]
    exact hs
  | @down key c s s' result hdown _ ih =>
    have hedits : s.scene.edits line (.on (.key key) c) = s.scene.edits line c := if_pos hdown
    rw [hedits]
    exact ih hs

/-- **Behind statements the entities are as the log tells with their edits.** -/
theorem tells_of_runAll : ∀ (sts : List Statement) {s s' : Stage} {log : List Edit},
    runAll sts s = .ok s' → Tells log s.scene.entities →
    Tells (log ++ s.edits sts) s'.scene.entities
  | [], s, s', log, h, hs => by
    obtain rfl := Except.ok.inj h
    rwa [edits, List.append_nil]
  | st :: sts, s, s', log, h, hs => by
    simp only [runAll] at h
    split at h
    · simp at h
    · rename_i s₁ hrun
      obtain ⟨s₂, result, hexec, rfl⟩ := executed_of_run hrun
      have hfirst := hexec.tells hs
      rw [← noted_scene (s₂, result)] at hfirst
      simp only [edits, hrun, ← List.append_assoc]
      exact tells_of_runAll sts h hfirst

end Stage
end StageScript

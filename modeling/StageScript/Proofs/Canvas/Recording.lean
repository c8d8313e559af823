/-
# Recordings

A recording knows its pictures by their names, and keeps the first asset of each name.  So what it
paints later is what was painted on it, with every picture in the form that came first under its
name (`Paint.settled`), and without those that the surface cannot paint (`replay_paintAll`).

Two things follow.  Where pictures of one name are the same, nothing is lost but what is not ready
(`replay_of_agree`).  And a recording is all that can be known of it: painted on an empty one it
gives the same recording, whatever was painted on it (`Recorded.paintAll_replay`).
-/
import Mathlib.Data.List.Basic
import Mathlib.Data.List.Induction
import StageScript.Paint

namespace StageScript

/-! ## 1. Pictures -/

namespace Paint

/-- The picture that a stroke paints. -/
def picture? : Paint → Option Asset
  | image a _ _ _ _ => some a
  | _ => none

/-- The surface can paint the stroke: it is no picture, or one that is ready. -/
def isPaintable (ready : Ready) (p : Paint) : Bool := p.picture?.all ready

/-- The stroke with the first of the pictures that has its name. -/
def settled (pictures : List Asset) : Paint → Paint
  | image a x y w h => image ((pictures.find? (·.name == a.name)).getD a) x y w h
  | p => p

/-- The pictures of strokes. -/
def pictures (ps : List Paint) : List Asset := ps.filterMap picture?

variable {p : Paint} {ps : List Paint} {images images' : List Asset} {a : Asset}

theorem isPaintable_always (p : Paint) : p.isPaintable .always = true := by
  rw [isPaintable]
  cases p.picture? <;> rfl

theorem name_of_find? {name : String} (h : images.find? (·.name == name) = some a) :
    a.name = name := by
  simpa using List.find?_some h

/-- A recording of the stroke does not show which picture of its name it was. -/
theorem recorded_settled (images : List Asset) (p : Paint) :
    (p.settled images).recorded = p.recorded := by
  cases p with
  | image a x y w h =>
    simp only [settled, recorded]
    cases hfind : images.find? (·.name == a.name) with
    | none => rfl
    | some b => rw [Option.getD_some, name_of_find? hfind]
  | background | rect | circle | line | text => rfl

/-- What is settled depends on the first picture of each name alone. -/
theorem settled_congr
    (h : ∀ name, images.find? (·.name == name) = images'.find? (·.name == name)) (p : Paint) :
    p.settled images = p.settled images' := by
  cases p with
  | image a x y w h' => simp only [settled, h]
  | background | rect | circle | line | text => rfl

/-- The picture of the stroke is the first of its name. -/
theorem settled_eq_self
    (h : ∀ a, p.picture? = some a → images.find? (·.name == a.name) = some a) :
    p.settled images = p := by
  cases p with
  | image a x y w h' => simp only [settled, h a rfl, Option.getD_some]
  | background | rect | circle | line | text => rfl

/-- Strokes in which a name stands for one picture. -/
def Agree (ps : List Paint) : Prop :=
  ∀ a ∈ pictures ps, ∀ b ∈ pictures ps, a.name = b.name → a = b

theorem mem_pictures (hp : p ∈ ps) (ha : p.picture? = some a) : a ∈ pictures ps :=
  List.mem_filterMap.mpr ⟨p, hp, ha⟩

theorem Agree.settled (h : Agree ps) (hp : p ∈ ps) : p.settled (pictures ps) = p := by
  refine settled_eq_self fun a ha => ?_
  have hmem := mem_pictures hp ha
  obtain ⟨b, hb⟩ : ∃ b, (pictures ps).find? (·.name == a.name) = some b := by
    rw [← Option.isSome_iff_exists, List.find?_isSome]
    exact ⟨a, hmem, by simp⟩
  rw [hb, h b (List.mem_of_find?_eq_some hb) a hmem (name_of_find? hb)]

end Paint

/-! ## 2. What a recording holds -/

namespace DrawList

open Paint (picture? pictures isPaintable settled Agree)

variable {l : DrawList} {p : Paint} {ps : List Paint} {images : List Asset} {ready : Ready}

/-- Strokes are recorded in order, and what is pending stays. -/
theorem paintAll_eq (l : DrawList) (ps : List Paint) :
    l.paintAll ps = ⟨l.commands ++ ps.map Paint.recorded, ps.foldl keep l.images, l.pending⟩ := by
  induction ps generalizing l with
  | nil => simp [paintAll]
  | cons p ps ih =>
    have hcons : l.paintAll (p :: ps) = (l.paint p).paintAll ps := rfl
    rw [hcons, ih]
    simp [paint]

theorem paintAll_append (l : DrawList) (ps qs : List Paint) :
    l.paintAll (ps ++ qs) = (l.paintAll ps).paintAll qs := List.foldl_append

/-- A picture is found as if all of them were kept. -/
theorem find?_keep (images : List Asset) (p : Paint) (name : String) :
    (keep images p).find? (·.name == name)
      = (images ++ p.picture?.toList).find? (·.name == name) := by
  cases p with
  | image a x y w h =>
    simp only [keep, picture?, Option.toList_some, List.find?_append]
    split
    · rename_i hknown
      cases hfind : images.find? (·.name == name) with
      | some b => rfl
      | none =>
        -- the name is not that of the picture, which is there already
        have hne : (a.name == name) = false := by
          rw [← Bool.not_eq_true, beq_iff_eq]
          rintro rfl
          rw [← List.isSome_find?, hfind] at hknown
          simp at hknown
        simp [hne]
    · rw [List.find?_append]
  | background | rect | circle | line | text => simp [keep, picture?]

theorem find?_foldl_keep (images : List Asset) (ps : List Paint) (name : String) :
    (ps.foldl keep images).find? (·.name == name)
      = (images ++ pictures ps).find? (·.name == name) := by
  induction ps generalizing images with
  | nil => simp [pictures]
  | cons p ps ih =>
    rw [List.foldl_cons, ih, List.find?_append, find?_keep, ← List.find?_append, List.append_assoc]
    refine congrArg (fun more => List.find? _ (images ++ more)) ?_
    cases hp : p.picture? <;> simp [pictures, hp]

/-- A recorded stroke is painted if its picture is found and ready. -/
theorem replayOne?_recorded
    (h : ∀ a, p.picture? = some a → (images.find? (·.name == a.name)).isSome = true) :
    replayOne? images ready p.recorded
      = Option.guard (isPaintable ready) (p.settled images) := by
  cases p with
  | image a x y w h' =>
    obtain ⟨b, hb⟩ := Option.isSome_iff_exists.mp (h a rfl)
    simp only [Paint.recorded, replayOne?, hb, settled, Option.getD_some]
    cases hready : ready b <;> simp [Option.guard, isPaintable, picture?, hready]
  | background | rect | circle | line | text => rfl

/-- **What a recording paints** is what was painted on it, each picture settled, if it is ready. -/
theorem replay_paintAll (ps : List Paint) (ready : Ready) :
    (empty.paintAll ps).replay ready
      = (ps.map (settled (pictures ps))).filter (isPaintable ready) := by
  have hfind (name : String) : (ps.foldl keep []).find? (·.name == name)
      = (pictures ps).find? (·.name == name) := find?_foldl_keep [] ps name
  rw [paintAll_eq, replay]
  simp only [empty, List.nil_append, List.filterMap_map]
  rw [← List.filterMap_eq_filter, List.filterMap_map]
  refine List.filterMap_congr fun p hp => ?_
  have hknown (a : Asset) (ha : p.picture? = some a) :
      ((ps.foldl keep []).find? (·.name == a.name)).isSome = true := by
    rw [hfind, List.find?_isSome]
    exact ⟨a, Paint.mem_pictures hp ha, by simp⟩
  rw [Function.comp_apply, replayOne?_recorded hknown, Paint.settled_congr hfind]
  rfl

/-- **Where a name stands for one picture**, a recording paints all that can be painted. -/
theorem replay_of_agree (h : Agree ps) (ready : Ready) :
    (empty.paintAll ps).replay ready = ps.filter (isPaintable ready) := by
  have hsame : ps.map (settled (pictures ps)) = ps := by
    conv_rhs => rw [← List.map_id ps]
    exact List.map_congr_left fun p hp => h.settled hp
  rw [replay_paintAll, hsame]

/-! ## 3. Recording a recording -/

/-- A settled stroke is kept as the stroke itself, if the first picture of its name is kept already
or is its own. -/
theorem keep_settled {kept : List Asset}
    (h : ∀ a, p.picture? = some a → kept.any (·.name == a.name) = false →
      images.find? (·.name == a.name) = some a) :
    keep kept (p.settled images) = keep kept p := by
  cases p with
  | image a x y w h' =>
    cases hknown : kept.any (·.name == a.name) with
    | true =>
      cases hfind : images.find? (·.name == a.name) with
      | none => simp [settled, hfind]
      | some b => simp [settled, hfind, keep, Paint.name_of_find? hfind, hknown]
    | false => rw [settled, h a rfl hknown, Option.getD_some]
  | background | rect | circle | line | text => rfl

/-- The same pictures are kept of settled strokes. -/
theorem foldl_keep_settled (ps more : List Paint) :
    (ps.map (settled (pictures (ps ++ more)))).foldl keep [] = ps.foldl keep [] := by
  induction ps using List.reverseRecOn generalizing more with
  | nil => rfl
  | append_singleton ps p ih =>
    have hkept := ih (p :: more)
    rw [List.append_assoc, List.singleton_append, List.map_append, List.foldl_append, hkept,
      List.foldl_append]
    refine keep_settled fun a ha hnew => ?_
    -- no picture of the name is kept, so none comes before the stroke
    have hnone : (pictures ps).find? (·.name == a.name) = none := by
      rw [← List.isSome_find?, find?_foldl_keep, List.nil_append] at hnew
      simpa using hnew
    rw [pictures, List.filterMap_append, List.find?_append, ← pictures, hnone, Option.none_or,
      List.filterMap_cons_some ha]
    exact List.find?_cons_of_pos (beq_self_eq_true a.name)

theorem filter_isPaintable_always (ps : List Paint) : ps.filter (isPaintable .always) = ps :=
  List.filter_eq_self.mpr fun p _ => p.isPaintable_always

theorem paintAll_replay_paintAll (ps : List Paint) :
    empty.paintAll ((empty.paintAll ps).replay .always) = empty.paintAll ps := by
  have hcommands : (ps.map (settled (pictures ps))).map Paint.recorded = ps.map Paint.recorded := by
    rw [List.map_map]
    exact List.map_congr_left fun p _ => Paint.recorded_settled _ p
  have himages := foldl_keep_settled ps []
  rw [List.append_nil] at himages
  rw [replay_paintAll, filter_isPaintable_always, paintAll_eq, paintAll_eq, hcommands]
  exact congrArg (fun images => DrawList.mk _ images _) himages

/-- A recording as it can come about. -/
inductive Recorded : DrawList → Prop
  | empty : Recorded .empty
  | paint {l : DrawList} (h : Recorded l) (p : Paint) : Recorded (l.paint p)
  | markPending {l : DrawList} (h : Recorded l) (name : String) : Recorded (l.markPending name)
  | clear {l : DrawList} (h : Recorded l) : Recorded l.clear

/-- But for what is pending, a recording is one of strokes on an empty one. -/
theorem Recorded.exists_paints (h : Recorded l) :
    ∃ ps, l = { DrawList.empty.paintAll ps with pending := l.pending } := by
  induction h with
  | empty => exact ⟨[], rfl⟩
  | @paint l h p ih =>
    obtain ⟨ps, hps⟩ := ih
    refine ⟨ps ++ [p], ?_⟩
    rw [paintAll_append, hps]
    rfl
  | @markPending l h name ih =>
    obtain ⟨ps, hps⟩ := ih
    refine ⟨ps, ?_⟩
    unfold DrawList.markPending
    split
    · exact hps
    · rw [hps]
  | @clear l h ih => exact ⟨[], rfl⟩

/-- **A recording painted on an empty one is the same recording.**  What was pending on it is not
part of what it recorded. -/
theorem Recorded.paintAll_replay (h : Recorded l) :
    DrawList.empty.paintAll (l.replay DrawList.empty.ready) = { l with pending := [] } := by
  obtain ⟨ps, hps⟩ := h.exists_paints
  have hreplay : l.replay DrawList.empty.ready = (DrawList.empty.paintAll ps).replay .always := by
    rw [hps]
    rfl
  rw [hreplay, paintAll_replay_paintAll, hps, paintAll_eq]
  rfl

end DrawList
end StageScript

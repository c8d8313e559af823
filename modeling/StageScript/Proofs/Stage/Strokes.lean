/-
# The strokes of statements

Which circles and lines a list of statements executes can be said without the three lists in
which a scene keeps them: an action means at most one stroke (`Scene.stroke?`), a key guard
passes on the stroke of its command while the key is held, listeners and timers execute nothing
yet, and the strokes of a list are those of its statements in order (`Stage.strokes`).

Carrying the statements out puts exactly these strokes behind those that are there: in the setup
behind the backdrop, later behind the overlay (`Scene.Inked`).  Everything else about the three
lists stays.
-/
import StageScript.Proofs.Stage.Frame

namespace StageScript

/-! ## 1. Strokes that are executed -/

namespace Scene

/-- The strokes that a command executes. -/
def strokes (s : Scene) (line : Nat) : Command → List Paint
  | .act a => (s.stroke? line a).toList
  | .on (.key key) c => if s.keys.isDown key then s.strokes line c else []
  | .on .click _ => []
  | .on (.every _) _ => []

end Scene

/-- The strokes that statements execute, each on the stage that those before it leave. -/
def Stage.strokes : List Statement → Stage → List Paint
  | [], _ => []
  | st :: sts, s =>
    s.scene.strokes st.line st.command ++
      match s.run st with
      | .ok s => strokes sts s
      | .error _ => []

/-! ## 2. Where they go -/

namespace Scene

/-- Strokes were added: in the setup to the backdrop, later to the overlay. -/
structure Inked (s : Scene) (ps : List Paint) (s' : Scene) : Prop where
  inSetup : s'.inSetup = s.inSetup
  carried : s'.carried = s.carried
  backdrop : s'.backdrop = s.backdrop ++ if s.inSetup then ps else []
  overlay : s'.overlay = s.overlay ++ if s.inSetup then [] else ps

variable {s s' s₁ : Scene} {ps qs : List Paint}

namespace Inked

/-- A scene whose three lists are the same. -/
theorem of_eq (hsetup : s'.inSetup = s.inSetup) (hcarried : s'.carried = s.carried)
    (hbackdrop : s'.backdrop = s.backdrop) (hoverlay : s'.overlay = s.overlay) :
    Inked s [] s' :=
  ⟨hsetup, hcarried, by simp [hbackdrop], by simp [hoverlay]⟩

theorem refl (s : Scene) : Inked s [] s := of_eq rfl rfl rfl rfl

theorem trans (h : Inked s ps s₁) (h' : Inked s₁ qs s') : Inked s (ps ++ qs) s' := by
  refine ⟨h'.inSetup.trans h.inSetup, h'.carried.trans h.carried, ?_, ?_⟩
  · rw [h'.backdrop, h.backdrop, h.inSetup, List.append_assoc]
    cases s.inSetup <;> simp
  · rw [h'.overlay, h.overlay, h.inSetup, List.append_assoc]
    cases s.inSetup <;> simp

end Inked

theorem addStroke_inked (s : Scene) (p : Paint) : Inked s [p] (s.addStroke p) := by
  unfold addStroke
  cases hsetup : s.inSetup with
  | true => exact ⟨hsetup.symm, rfl, by simp [hsetup], by simp [hsetup]⟩
  | false => exact ⟨hsetup.symm, rfl, by simp [hsetup], by simp [hsetup]⟩

/-- **An action adds the stroke that it executes, and no other.** -/
theorem Change.inked {line : Nat} {a : Action} (h : Change s line a s') :
    Inked s (s.stroke? line a).toList s' := by
  cases h with
  | none hnone =>
    rw [hnone]
    exact .refl s
  | stroke hp =>
    rw [hp]
    exact addStroke_inked s _
  | declared e ha | replaced e ha =>
    rw [stroke?_of_entity? ha]
    exact .of_eq rfl rfl rfl rfl
  | assigned x ha =>
    rw [stroke?_of_var? ha]
    exact .of_eq rfl rfl rfl rfl
  | _ => exact .of_eq rfl rfl rfl rfl

theorem perform_inked (s : Scene) (line : Nat) (a : Action) :
    Inked s (s.stroke? line a).toList (s.perform line a).scene :=
  (s.perform_change line a).inked

end Scene

namespace Stage

open Scene (Inked)

theorem Executed.inked {line : Nat} {c : Command} {s s' : Stage}
    {result : Except RunError (Option Float)} (h : Executed line c s s' result) :
    Inked s.scene (s.scene.strokes line c) s'.scene := by
  induction h with
  | act a s => exact s.scene.perform_inked line a
  | listen c s => exact .of_eq rfl rfl rfl rfl
  | refused c s _ => exact .refl _
  | register _ _ => exact .of_eq rfl rfl rfl rfl
  | @up key c s hup =>
    have hstrokes : s.scene.strokes line (.on (.key key) c) = [] := if_neg (by simp [hup])
    rw [hstrokes]
    exact .refl _
  | @down key c s s' result hdown _ ih =>
    have hstrokes : s.scene.strokes line (.on (.key key) c) = s.scene.strokes line c :=
      if_pos hdown
    rw [hstrokes]
    exact ih

/-- **Statements add the strokes that they execute, in order.** -/
theorem inked_of_runAll : ∀ (sts : List Statement) {s s' : Stage},
    runAll sts s = .ok s' → Inked s.scene (s.strokes sts) s'.scene
  | [], s, s', h => by
    obtain rfl := Except.ok.inj h
    exact .refl _
  | st :: sts, s, s', h => by
    simp only [runAll] at h
    split at h
    · simp at h
    · rename_i s₁ hrun
      obtain ⟨s₂, result, hexec, rfl⟩ := executed_of_run hrun
      have hfirst := hexec.inked
      have hrest := inked_of_runAll sts h
      rw [noted_scene] at hrest
      simp only [strokes, hrun]
      exact hfirst.trans hrest

end Stage
end StageScript

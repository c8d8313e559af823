/-
# Twin stages

Two stages are twins when nothing that a statement reads or writes tells them apart, but for two
things that no statement looks at: the numbers of the timers of one are raised by a constant, and
diagnostics that were there before wait in front of its journal (`Stage.Twins`).

Twins stay twins, whatever is carried out on them, and a time goes beyond the longest duration on
both of them or on neither (`runAll_twins`).  The events of a journal may differ: the event of a
registered timer mentions its number.
-/
import StageScript.Proofs.Stage.Frame
import StageScript.Proofs.Stage.Results
import StageScript.Proofs.Timers.Numbering

namespace StageScript

/-! ## 1. Actions on raised timers -/

/-- The scene with the numbers of its timers raised by `n`. -/
def Scene.shift (n : Nat) (s : Scene) : Scene := s.withTimers (s.timers.shift n)

theorem Scene.perform_shift (n : Nat) (s : Scene) (line : Nat) (a : Action) :
    (s.shift n).perform line a = (s.perform line a).onScene (.shift n) := by
  have htimers : (s.perform line a).scene.timers = s.timers := (s.perform_frame line a).timers
  rw [shift, perform_withTimers]
  simp only [Outcome.onScene, shift, htimers]

theorem Scene.reset_shift (n : Nat) (s : Scene) (g : Generator) :
    (s.shift n).reset g = (s.reset g).shift n := rfl

/-! ## 2. Twins -/

namespace Stage

/-- The first stage is the second one with raised timers, and with diagnostics that waited
before. -/
structure Twins (n : Nat) (pending : List Diagnostic) (s t : Stage) : Prop where
  scene : s.scene = t.scene.shift n
  waiting : s.journal.diagnostics.toList = pending ++ t.journal.diagnostics.toList

variable {n : Nat} {pending : List Diagnostic} {s t : Stage}

/-- What does not depend on the numbers of timers is the same on twins. -/
theorem Twins.same (h : Twins n pending s t) {α : Type} (p : Scene → α)
    (hp : ∀ u, p (u.shift n) = p u) : p s.scene = p t.scene := by
  rw [h.scene, hp]

/-- Twins stay twins when each writes an event, if the two events report the same. -/
theorem Twins.log (h : Twins n pending s t) {e e' : Event} (he : e.report? = e'.report?) :
    Twins n pending (s.log e) (t.log e') := by
  refine ⟨h.scene, ?_⟩
  have hs : (s.log e).journal = s.journal.record e := rfl
  have ht : (t.log e').journal = t.journal.record e' := rfl
  rw [hs, ht, Journal.record_diagnostics, Journal.record_diagnostics, h.waiting, he,
    List.append_assoc]

/-- Twins stay twins when they get scenes that differ in the numbers of the timers alone. -/
theorem Twins.withScene (h : Twins n pending s t) {s' t' : Scene} (hscene : s' = t'.shift n) :
    Twins n pending (s.withScene s') (t.withScene t') := ⟨hscene, h.waiting⟩

/-- Twins stay twins when an action is carried out on both, and it has the same result. -/
theorem Twins.perform (h : Twins n pending s t) (line : Nat) (a : Action) :
    (s.scene.perform line a).result = (t.scene.perform line a).result ∧
      Twins n pending ⟨(s.scene.perform line a).scene,
          s.journal.recordAll (s.scene.perform line a).notes⟩
        ⟨(t.scene.perform line a).scene,
          t.journal.recordAll (t.scene.perform line a).notes⟩ := by
  rw [h.scene, Scene.perform_shift]
  refine ⟨rfl, rfl, ?_⟩
  -- the notes are the same, since the outcome is
  simp only [Journal.recordAll_diagnostics, h.waiting, List.append_assoc]
  rfl

/-- A command has the same result on twins, and leaves them twins. -/
theorem exec_twins {line : Nat} : ∀ (c : Command) {s t : Stage}, Twins n pending s t →
    Matched (fun x y => x.2 = y.2 ∧ Twins n pending x.1 y.1) (exec line c s) (exec line c t)
  | .act a, s, t, h => by
    have hlog : Twins n pending (s.log (.command line (Command.act a).tag))
        (t.log (.command line (Command.act a).tag)) := h.log rfl
    obtain ⟨hresult, htwins⟩ := hlog.perform line a
    refine .result ⟨?_, htwins⟩
    simp only [hresult]
  | .on .click c, s, t, h => by
    have hlog : Twins n pending (s.log (.command line (Command.on .click c).tag))
        (t.log (.command line (Command.on .click c).tag)) := h.log rfl
    have hclicks : { s.scene with clicks := s.scene.clicks ++ [⟨line, c⟩] }
        = Scene.shift n { t.scene with clicks := t.scene.clicks ++ [⟨line, c⟩] } := by
      rw [h.scene]
      rfl
    exact .result ⟨rfl, (hlog.withScene hclicks).log rfl⟩
  | .on (.every seconds) c, s, t, h => by
    have hlog : Twins n pending (s.log (.command line (Command.on (.every seconds) c).tag))
        (t.log (.command line (Command.on (.every seconds) c).tag)) := h.log rfl
    have hconfig : s.scene.config = t.scene.config := h.same Scene.config fun _ => rfl
    have htimers : s.scene.timers = t.scene.timers.shift n := by
      rw [h.scene]
      rfl
    cases hperiod : period? t.scene.config seconds with
    | none =>
      simp only [exec, log_scene, hconfig, hperiod]
      exact .result ⟨rfl, hlog⟩
    | some period =>
      simp only [exec, log_scene, hconfig, hperiod, htimers, Timers.register_shift]
      cases t.scene.timers.register period ⟨line, c⟩ with
      | error left => exact .overflow _ _
      | ok x =>
        obtain ⟨id, ts⟩ := x
        -- the events name timers with different numbers, but they report nothing
        refine .result ⟨rfl, (hlog.withScene ?_).log rfl⟩
        rw [h.scene]
        rfl
  | .on (.key key) c, s, t, h => by
    have hlog : Twins n pending (s.log (.command line (Command.on (.key key) c).tag))
        (t.log (.command line (Command.on (.key key) c).tag)) := h.log rfl
    have hkeys : s.scene.keys = t.scene.keys := h.same Scene.keys fun _ => rfl
    simp only [exec]
    split
    · rename_i hs
      split
      · exact exec_twins c hlog
      · rename_i ht
        exact absurd (hkeys ▸ hs) ht
    · rename_i hs
      split
      · rename_i ht
        exact absurd (hkeys ▸ ht) hs
      · exact .result ⟨rfl, hlog⟩

/-- A statement leaves twins as twins: it fails on both, and for the same reason, or on neither. -/
theorem run_twins (h : Twins n pending s t) (st : Statement) :
    Matched (Twins n pending) (s.run st) (t.run st) := by
  rw [run_eq, run_eq]
  refine (exec_twins st.command h).map ?_
  rintro ⟨s', result⟩ ⟨t', result'⟩ ⟨hresult, htwins⟩
  obtain rfl : result = result' := hresult
  cases result with
  | error e => exact htwins.log rfl
  | ok x => exact htwins

/-- **Whatever is carried out, twins stay twins.** -/
theorem runAll_twins : ∀ (sts : List Statement) {s t : Stage}, Twins n pending s t →
    Matched (Twins n pending) (runAll sts s) (runAll sts t)
  | [], s, t, h => .result h
  | st :: sts, s, t, h => by
    rw [runAll_cons, runAll_cons]
    exact (run_twins h st).bind fun s' t' h' => runAll_twins sts h'

end Stage
end StageScript

/-
# A failure changes nothing

A command that fails leaves the scene exactly as it found it.  All that remains of it is in the
journal: the reports of the expressions that were evaluated on the way, and behind them, once the
failure is reported, the failure itself.

No command reads the journal, so what comes behind a failed statement goes as if the statement had
not been there.  `succeeding` leaves the failing statements out of a list, where a statement fails
if it does so at its turn in that very run, and `scene_of_succeeding` says that the list without
them ends on the same scene.
-/
import StageScript.Proofs.Stage.Steps
import StageScript.Proofs.Stage.Twins

namespace StageScript

/-! ## 1. One command -/

theorem Scene.Evaluated.reports {line : Nat} {notes : List Event}
    (h : Scene.Evaluated line notes) :
    ∀ d ∈ notes.filterMap Event.report?, d.OfEvaluation line := by
  intro d hd
  obtain ⟨e, he, hreport⟩ := List.mem_filterMap.mp hd
  obtain ⟨d', hd', rfl⟩ := h e he
  obtain rfl : d' = d := Option.some.inj hreport
  exact hd'

namespace Stage

variable {line : Nat} {c : Command} {s s' t : Stage} {result : Except RunError (Option Float)}

/-- What a failed command leaves behind: the scene it was given, and some more reports of
evaluations. -/
structure Failed (line : Nat) (s s' : Stage) (e : RunError) : Prop where
  scene : s'.scene = s.scene
  onLine : e.line = line
  cause : e.cause.ofEvaluation = false
  reports : ∃ reports : List Diagnostic, (∀ d ∈ reports, d.OfEvaluation line) ∧
    s'.journal.diagnostics.toList = s.journal.diagnostics.toList ++ reports

/-- **A command that fails changes nothing.** -/
theorem Executed.failed (h : Executed line c s s' result) :
    ∀ {e : RunError}, result = .error e → Failed line s s' e := by
  induction h with
  | act a s =>
    intro e he
    cases hresult : (s.scene.perform line a).result with
    | ok x =>
      rw [hresult] at he
      have he : Except.ok x = Except.error e := he
      simp at he
    | error cause =>
      rw [hresult] at he
      obtain rfl : (⟨cause, line⟩ : RunError) = e := Except.error.inj he
      obtain ⟨hscene, hcause, hnotes⟩ := (s.scene.perform_sound line a).failed cause hresult
      exact ⟨hscene, rfl, hcause, _, hnotes.reports, Journal.recordAll_diagnostics _ _⟩
  | listen c s => exact fun he => by simp at he
  | refused c s _ =>
    intro e he
    obtain rfl := Except.error.inj he
    exact ⟨rfl, rfl, rfl, [], fun _ h => absurd h List.not_mem_nil, (List.append_nil _).symm⟩
  | register _ _ => exact fun he => by simp at he
  | up c s _ => exact fun he => by simp at he
  | down _ _ ih =>
    intro e he
    -- the event of the guard is in the journal already, and reports nothing
    obtain ⟨hscene, hline, hcause, hreports⟩ := ih he
    exact ⟨hscene, hline, hcause, hreports⟩

/-! ## 2. Commands read no journal -/

/-- The stage with an empty journal. -/
def bare (s : Stage) : Stage := ⟨s.scene, .empty⟩

theorem twins_bare (s : Stage) : Twins 0 s.journal.diagnostics.toList s s.bare := by
  refine ⟨?_, (List.append_nil _).symm⟩
  have hid : Timer.shift 0 = id := rfl
  have hshift : s.scene.timers.shift 0 = s.scene.timers := by
    simp [Timers.shift, hid]
  exact congrArg (fun ts => s.scene.withTimers ts) hshift.symm

/-- On the same scene a command has the same result, and leaves the same scene. -/
theorem exec_of_scene_eq (h : s.scene = t.scene) (line : Nat) (c : Command) :
    Matched (fun x y => x.2 = y.2 ∧ x.1.scene = y.1.scene) (exec line c s) (exec line c t) := by
  have hbare : s.bare = t.bare := congrArg (fun scene => Stage.mk scene .empty) h
  -- both go as on their common scene with nothing in the journal
  have hs : Matched _ (exec line c s) (exec line c s.bare) := exec_twins c s.twins_bare
  have ht : Matched _ (exec line c t) (exec line c t.bare) := exec_twins c t.twins_bare
  rw [hbare] at hs
  generalize exec line c s = x at hs
  generalize exec line c t = y at ht
  generalize exec line c t.bare = z at hs ht
  cases hs with
  | overflow o _ =>
    cases ht with
    | overflow o' _ => exact .overflow o o'
  | @result a _ ha =>
    cases ht with
    | @result b _ hb =>
      exact .result ⟨ha.1.trans hb.1.symm, ha.2.scene.trans hb.2.scene.symm⟩

/-! ## 3. Statements behind a failure -/

/-- The statements of a list that do not fail when the list is carried out.  A statement that goes
beyond the longest duration does not fail: it ends the run, and so it stays. -/
def succeeding : List Statement → Stage → List Statement
  | [], _ => []
  | st :: sts, s =>
    match exec st.line st.command s with
    | .error _ => st :: sts
    | .ok (s, .ok _) => st :: succeeding sts s
    | .ok (s, .error e) => succeeding sts (s.log (.reported (.ofError e)))

/-- **Without the statements that fail, a list ends on the same scene.** -/
theorem scene_of_succeeding : ∀ (sts : List Statement) {s t : Stage}, s.scene = t.scene →
    Matched (fun x y => x.scene = y.scene) (runAll sts s) (runAll (succeeding sts s) t)
  | [], s, t, h => .result h
  | st :: sts, s, t, h => by
    have hexec := exec_of_scene_eq h st.line st.command
    cases hs : exec st.line st.command s with
    | error o =>
      rw [hs] at hexec
      cases ht : exec st.line st.command t with
      | error o' =>
        simp only [succeeding, hs, runAll, run, ht]
        exact .overflow _ _
      | ok y =>
        rw [ht] at hexec
        cases hexec
    | ok x =>
      obtain ⟨s₁, result⟩ := x
      rw [hs] at hexec
      obtain ⟨⟨t₁, result'⟩, ht, hresult, hscene⟩ := hexec.exists_of_ok
      obtain rfl : result = result' := hresult
      cases result with
      | ok x =>
        simp only [succeeding, hs, runAll, run, ht]
        exact scene_of_succeeding sts hscene
      | error e =>
        -- the second run goes on from where it stands, on the scene from before the failure
        have hfailed := (executed_of_exec hs).failed rfl
        simp only [succeeding, hs, runAll, run]
        exact scene_of_succeeding sts (hfailed.scene.trans h)

/-! ## 4. Failures on every stage -/

/-- **A failure changes nothing.**  Whatever the stage, the command and its line, a command that
fails leaves the very scene it was given: entities, variables, timers, listeners, keys, colors,
background, strokes, sounds, assets and generator.  It has reported evaluations on its line, and
behind their reports its statement reports the failure, once.  So a list of statements ends on the
same scene without those of its statements that fail on the way, or goes beyond the longest
duration without them as well. -/
theorem failures_change_nothing (s : Stage) :
    (∀ (line : Nat) (c : Command) (s' : Stage) (e : RunError),
      exec line c s = .ok (s', .error e) →
        s'.scene = s.scene ∧ e.line = line ∧ e.cause.ofEvaluation = false ∧
        ∃ (reports : List Diagnostic) (s'' : Stage),
          (∀ d ∈ reports, d.OfEvaluation line) ∧
          s'.journal.diagnostics.toList = s.journal.diagnostics.toList ++ reports ∧
          s.run ⟨line, c⟩ = .ok s'' ∧ s''.scene = s.scene ∧
          s''.journal.diagnostics.toList
            = s.journal.diagnostics.toList ++ reports ++ [.ofError e]) ∧
    ∀ sts : List Statement,
      Matched (fun s₁ s₂ => s₁.scene = s₂.scene) (runAll sts s) (runAll (succeeding sts s) s) := by
  refine ⟨fun line c s' e hexec => ?_, fun sts => scene_of_succeeding sts rfl⟩
  obtain ⟨hscene, hline, hcause, reports, hreports, hwaiting⟩ := (executed_of_exec hexec).failed rfl
  have hrun : s.run ⟨line, c⟩ = .ok (s'.log (.reported (.ofError e))) := by
    simp only [run, hexec]
  refine ⟨hscene, hline, hcause, reports, _, hreports, hwaiting, hrun, hscene, ?_⟩
  rw [← hwaiting]
  exact Journal.record_diagnostics s'.journal (.reported (.ofError e))

/-- A stage with a label, on which a key is held. -/
def labelledStage : Stage :=
  ⟨{ Scene.initial (.seeded 0) (.ofSeed 0) with
      entities := ⟨[("t", .label 0.0 0.0 "hi" 12.0 (.resolve "red") "serif")]⟩
      keys := ⟨["a"]⟩ }, .empty⟩

/-- A label has no width, and the new one is no number either. -/
def widening : Command :=
  .on (.key "a") (.act (.setProperty "t" "w"
    (.number ⟨"1 / 0", .ok (.binary .div (.number 1.0) (.number 0.0))⟩)))

/-- The division is reported and then the failure; the statement behind it is carried out. -/
theorem failures_change_nothing_labelledStage :
    ∃ s' e s'' s₁ s₂,
      exec 3 widening labelledStage = .ok (s', .error e) ∧ s'.scene = labelledStage.scene ∧
      s'.journal.diagnostics.size = 1 ∧
      labelledStage.run ⟨3, widening⟩ = .ok s'' ∧ s''.scene = labelledStage.scene ∧
      s''.journal.diagnostics.toList = s'.journal.diagnostics.toList ++ [.ofError e] ∧
      (succeeding [⟨3, widening⟩, ⟨4, .act (.setColor "blue")⟩] labelledStage).map Statement.line
        = [4] ∧
      runAll [⟨3, widening⟩, ⟨4, .act (.setColor "blue")⟩] labelledStage = .ok s₁ ∧
      runAll (succeeding [⟨3, widening⟩, ⟨4, .act (.setColor "blue")⟩] labelledStage)
        labelledStage = .ok s₂ ∧
      s₁.scene = s₂.scene := by
  have hfails : passes (exec 3 widening labelledStage) (fun x =>
      !x.2.isOk && x.1.journal.diagnostics.size == 1) = true := by decide +kernel
  have hleft : (succeeding [⟨3, widening⟩, ⟨4, .act (.setColor "blue")⟩] labelledStage).map
      Statement.line = [4] := by decide +kernel
  obtain ⟨⟨s', result⟩, hs', htest⟩ := exists_of_passes hfails
  simp only [Bool.and_eq_true, beq_iff_eq] at htest
  obtain ⟨herror, hsize⟩ := htest
  obtain ⟨hone, hall⟩ := failures_change_nothing labelledStage
  cases result with
  | ok x => simp [Except.isOk, Except.toBool] at herror
  | error e =>
    obtain ⟨hscene, -, -, reports, s'', -, hwaiting, hrun, hscene', hwaiting'⟩ :=
      hone 3 widening s' e hs'
    have hlists := hall [⟨3, widening⟩, ⟨4, .act (.setColor "blue")⟩]
    have hfirst : runAll [⟨3, widening⟩, ⟨4, .act (.setColor "blue")⟩] labelledStage
        = runAll [⟨4, .act (.setColor "blue")⟩] s'' := by
      rw [runAll_cons, hrun]
      rfl
    obtain ⟨s₁, hs₁⟩ : ∃ s₁, runAll [⟨4, .act (.setColor "blue")⟩] s'' = .ok s₁ := ⟨_, rfl⟩
    rw [hfirst, hs₁] at hlists
    obtain ⟨s₂, hs₂, hsame⟩ := hlists.exists_of_ok
    rw [← hwaiting] at hwaiting'
    exact ⟨s', e, s'', s₁, s₂, hs', hscene, hsize, hrun, hscene', hwaiting', hleft,
      hfirst.trans hs₁, hs₂, hsame⟩

end Stage
end StageScript

/-
# Statements without timers

A command contains a timer if `every` stands in it at any depth.  The one thing in all commands
that can go beyond the longest duration is the registration of a timer, and the one thing that
reads the clock is that same registration.  So statements without timers always have a result,
they leave the timers alone, and on a scene with other timers they do the same.

Nor do they look at the strokes that wait to be painted: they only put strokes behind the overlay.
`exists_runAll_atop` says all of this of one list of statements at once.
-/
import StageScript.Proofs.Stage.Frame
import StageScript.Proofs.Stage.Results

namespace StageScript

/-- The command contains `every` at some depth. -/
def Command.hasTimer : Command → Bool
  | .act _ => false
  | .on (.every _) _ => true
  | .on .click c => c.hasTimer
  | .on (.key _) c => c.hasTimer

namespace Stage

/-- The stage with other timers, other carried strokes, and older strokes beneath its overlay. -/
def atop (ts : Timers) (carried older : List Paint) (s : Stage) : Stage :=
  s.withScene (s.scene.atop ts carried older)

/-- A command without timers has a result and leaves the timers alone.  It sees neither them nor
the strokes that wait. -/
theorem exists_exec_atop (line : Nat) : ∀ (c : Command), c.hasTimer = false → ∀ (s : Stage),
    ∃ s' result, exec line c s = .ok (s', result) ∧ s'.scene.timers = s.scene.timers ∧
      ∀ ts carried older,
        exec line c (s.atop ts carried older) = .ok (s'.atop ts carried older, result)
  | .act a, _, s => by
    refine ⟨_, _, rfl, (s.scene.perform_frame line a).timers, ?_⟩
    intro ts carried older
    have hperform := s.scene.perform_atop ts carried older line a
    have hscene : ((s.atop ts carried older).log (.command line (Command.act a).tag)).scene
        = s.scene.atop ts carried older := rfl
    simp only [exec, hscene, hperform]
    rfl
  | .on .click c, _, s => ⟨_, _, rfl, rfl, fun _ _ _ => rfl⟩
  | .on (.every seconds) c, h, s => by simp [Command.hasTimer] at h
  | .on (.key key) c, h, s => by
    have hkeys : ∀ ts carried older, (s.atop ts carried older).scene.keys = s.scene.keys :=
      fun _ _ _ => rfl
    simp only [exec_key, hkeys]
    split
    · obtain ⟨s', result, hexec, htimers, hatop⟩ :=
        exists_exec_atop line c h (s.log (.command line (Command.on (.key key) c).tag))
      exact ⟨s', result, hexec, htimers, hatop⟩
    · exact ⟨_, _, rfl, rfl, fun _ _ _ => rfl⟩

theorem exists_run_atop {st : Statement} (h : st.command.hasTimer = false) (s : Stage) :
    ∃ s', s.run st = .ok s' ∧ s'.scene.timers = s.scene.timers ∧
      ∀ ts carried older, (s.atop ts carried older).run st = .ok (s'.atop ts carried older) := by
  obtain ⟨s', result, hexec, htimers, hatop⟩ := exists_exec_atop st.line st.command h s
  cases result with
  | ok x =>
    refine ⟨s', by rw [run_eq, hexec]; rfl, htimers, ?_⟩
    intro ts carried older
    rw [run_eq, hatop]
    rfl
  | error e =>
    refine ⟨s'.log (.reported (.ofError e)), by rw [run_eq, hexec]; rfl, htimers, ?_⟩
    intro ts carried older
    rw [run_eq, hatop]
    rfl

/-- **Statements without timers have a result, leave the timers alone, and see neither them nor
the strokes that wait.** -/
theorem exists_runAll_atop {sts : List Statement} (h : ∀ st ∈ sts, st.command.hasTimer = false)
    (s : Stage) :
    ∃ s', runAll sts s = .ok s' ∧ s'.scene.timers = s.scene.timers ∧
      ∀ ts carried older,
        runAll sts (s.atop ts carried older) = .ok (s'.atop ts carried older) := by
  induction sts generalizing s with
  | nil => exact ⟨s, rfl, rfl, fun _ _ _ => rfl⟩
  | cons st sts ih =>
    obtain ⟨s₁, hrun, htimers₁, hatop₁⟩ := exists_run_atop (h st List.mem_cons_self) s
    obtain ⟨s', hrest, htimers, hatop⟩ := ih (fun st' hst' => h st' (List.mem_cons_of_mem _ hst')) s₁
    refine ⟨s', ?_, htimers.trans htimers₁, ?_⟩
    · rw [runAll_cons, hrun]
      exact hrest
    · intro ts carried older
      rw [runAll_cons, hatop₁]
      exact hatop ts carried older

end Stage
end StageScript

/-
# Where listeners and timers come from

What waits for a click or a tick was cut out of a command: of `on click c` the part `c` is kept,
and `c` may set timers and listeners of its own when its time comes.  So the invariant speaks of
parts at any depth (`Command.IsPartOf`), of commands that a script holds on a line
(`Script.Holds`), and of a scene in which everything that waits is held by the script, behind the
trigger it waits for (`Scene.Traced`).

A command that the script holds keeps such a scene, and whatever it writes speaks of commands and
lines of the script (`follows_of_runAll`).  The period of a timer is traced as well: it is the one
that the script asks for.
-/
import StageScript.Proofs.Stage.Failure
import StageScript.Proofs.Timers.Schedule

namespace StageScript

/-! ## 1. Commands of a script -/

/-- On the line there is a statement of the script, and the command is part of it. -/
def Script.Holds (script : Script) (line : Nat) (c : Command) : Prop :=
  ∃ st ∈ script.statements, st.line = line ∧ c.IsPartOf st.command

variable {script : Script} {line : Nat} {c : Command}

theorem Script.Holds.part (h : script.Holds line c) {part : Command} (hpart : part.IsPartOf c) :
    script.Holds line part := by
  obtain ⟨st, hst, hline, hc⟩ := h
  exact ⟨st, hst, hline, hpart.trans hc⟩

/-- What stands behind a trigger is held with it. -/
theorem Script.Holds.behind {t : Trigger} (h : script.Holds line (.on t c)) :
    script.Holds line c := h.part (.on t (.refl c))

theorem Script.holds_of_mem {st : Statement} (h : st ∈ script.statements) :
    script.Holds st.line st.command := ⟨st, h, rfl, .refl _⟩

/-- The event speaks of no command and no line but those of the script. -/
def Event.StemsFrom (script : Script) : Event → Prop
  | .command line tag => ∃ c, script.Holds line c ∧ c.tag = tag
  | .reported d => ∃ st ∈ script.statements, d.line = some st.line
  | .listenerRegistered line => ∃ st ∈ script.statements, st.line = line
  | .timerRegistered line _ _ => ∃ st ∈ script.statements, st.line = line
  | _ => True

theorem Event.IsOf.stemsFrom {e : Event} (h : e.IsOf line c) (hc : script.Holds line c) :
    e.StemsFrom script := by
  obtain ⟨st, hst, hline, -⟩ := id hc
  cases h with
  | @command part hpart => exact ⟨part, hc.part hpart, rfl⟩
  | action h =>
    cases h with
    | reported hd => exact ⟨st, hst, hd.trans (congrArg some hline.symm)⟩
    | soundQueued name => trivial
    | redeclared name => trivial
  | listener => exact ⟨st, hst, hline⟩
  | timer id period => exact ⟨st, hst, hline⟩

/-! ## 2. What waits on a scene -/

namespace Scene

/-- All that waits on the scene is held by the script, on the line it carries and behind the
trigger it waits for. -/
structure Traced (script : Script) (s : Scene) : Prop where
  timers : ∀ t ∈ s.timers.timers, ∃ seconds,
    script.Holds t.statement.line (.on (.every seconds) t.statement.command) ∧
      Stage.period? s.config seconds = some t.period
  clicks : ∀ st ∈ s.clicks, script.Holds st.line (.on .click st.command)

variable {s s' : Scene}

/-- A scene on which nothing waits. -/
theorem Traced.of_nil (htimers : s.timers.timers = []) (hclicks : s.clicks = []) :
    s.Traced script := by
  constructor
  · rw [htimers]
    exact fun _ h => absurd h List.not_mem_nil
  · rw [hclicks]
    exact fun _ h => absurd h List.not_mem_nil

/-- Only the settings, the timers and the listeners matter. -/
theorem Traced.of_eq (h : s.Traced script) (hconfig : s'.config = s.config)
    (htimers : s'.timers = s.timers) (hclicks : s'.clicks = s.clicks) : s'.Traced script := by
  constructor
  · rw [hconfig, htimers]
    exact h.timers
  · rw [hclicks]
    exact h.clicks

theorem Traced.listen (h : s.Traced script) (hc : script.Holds line (.on .click c)) :
    Traced script { s with clicks := s.clicks ++ [⟨line, c⟩] } := by
  refine ⟨h.timers, fun st hst => ?_⟩
  rcases List.mem_append.mp hst with hst | hst
  · exact h.clicks st hst
  · obtain rfl := List.mem_singleton.mp hst
    exact hc

theorem Traced.register (h : s.Traced script) {seconds : Float} {period : Duration} {id : Nat}
    {ts : Timers} (hc : script.Holds line (.on (.every seconds) c))
    (hperiod : Stage.period? s.config seconds = some period)
    (hregister : s.timers.register period ⟨line, c⟩ = .ok (id, ts)) :
    Traced script { s with timers := ts } := by
  obtain ⟨-, due, -, rfl⟩ := Timers.eq_of_register hregister
  refine ⟨fun t ht => ?_, h.clicks⟩
  rcases List.mem_append.mp ht with ht | ht
  · exact h.timers t ht
  · obtain rfl := List.mem_singleton.mp ht
    exact ⟨seconds, hc, hperiod⟩

/-- Timers that move on are still those of the script. -/
theorem Traced.withTimers (h : s.Traced script) {ts : Timers}
    (hts : Timers.DrawnFrom ts.timers s.timers.timers) : (s.withTimers ts).Traced script := by
  refine ⟨fun t ht => ?_, h.clicks⟩
  obtain ⟨u, hu, hperiod, hstatement⟩ := hts t ht
  obtain ⟨seconds, hholds, hseconds⟩ := h.timers u hu
  rw [hstatement] at hholds
  exact ⟨seconds, hholds, hseconds.trans (congrArg some hperiod)⟩

end Scene

/-! ## 3. What statements of the script do -/

namespace Stage

variable {s s' : Stage} {result : Except RunError (Option Float)}

/-- **A command that the script holds leaves what waits traced.** -/
theorem Executed.traced (h : Executed line c s s' result) :
    script.Holds line c → s.scene.Traced script → s'.scene.Traced script := by
  induction h with
  | act a s =>
    intro _ hs
    have hframe := s.scene.perform_frame line a
    exact hs.of_eq hframe.config hframe.timers hframe.clicks
  | listen c s => exact fun hc hs => hs.listen hc
  | refused c s _ => exact fun _ hs => hs
  | register hperiod hregister => exact fun hc hs => hs.register hc hperiod hregister
  | up c s _ => exact fun _ hs => hs
  | down _ _ ih => exact fun hc hs => ih hc.behind hs

/-- The second stage is traced, and its journal continues the other one with what stems from the
script. -/
structure Follows (script : Script) (s s' : Stage) : Prop where
  traced : s'.scene.Traced script
  journal : s.journal.Continues (Event.StemsFrom script) s'.journal

theorem Follows.trans {s s' s'' : Stage} (h : Follows script s s') (h' : Follows script s' s'') :
    Follows script s s'' := ⟨h'.traced, h.journal.trans h'.journal⟩

theorem follows_of_run {st : Statement} (hst : script.Holds st.line st.command)
    (hs : s.scene.Traced script) (h : s.run st = .ok s') : Follows script s s' := by
  obtain ⟨s₁, result, hexec, rfl⟩ := executed_of_run h
  have hjournal : s.journal.Continues (Event.StemsFrom script) s₁.journal :=
    hexec.continues.mono fun e he => he.stemsFrom hst
  refine ⟨?_, ?_⟩
  · rw [noted_scene]
    exact hexec.traced hst hs
  · cases result with
    | ok x => exact hjournal
    | error e =>
      -- the failure is reported on the line of its statement
      have hline : e.line = st.line := (hexec.failed rfl).onLine
      obtain ⟨st', hst', hline', -⟩ := hst
      have hreport : Event.StemsFrom script (.reported (.ofError e)) :=
        ⟨st', hst', congrArg some (hline.trans hline'.symm)⟩
      exact hjournal.trans (.record hreport)

/-- **Statements that the script holds leave what waits traced, and write nothing but what stems
from the script.** -/
theorem follows_of_runAll : ∀ (sts : List Statement) {s s' : Stage},
    (∀ st ∈ sts, script.Holds st.line st.command) → s.scene.Traced script →
    runAll sts s = .ok s' → Follows script s s'
  | [], s, s', _, hs, h => by
    obtain rfl := Except.ok.inj h
    exact ⟨hs, .refl _ _⟩
  | st :: sts, s, s', hsts, hs, h => by
    rw [List.forall_mem_cons] at hsts
    simp only [runAll] at h
    split at h
    · simp at h
    · rename_i s₁ hrun
      have hfirst := follows_of_run hsts.1 hs hrun
      exact hfirst.trans (follows_of_runAll sts hsts.2 hfirst.traced h)

end Stage
end StageScript

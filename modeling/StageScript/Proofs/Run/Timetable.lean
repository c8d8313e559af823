/-
# The timers of a run keep their schedule

A run does to its timers what `Timers.Op` lists, and nothing else: commands register, steps of
the clock advance, and setups, stops, loads and previews clear.  `Run.timerOps` reads off which
operations a call does, in order, by going where the call goes.  Replayed on the timers alone
they lead to the timers of the run (`leads_of_called`), so what `Schedule` proves of every
sequence of operations holds of every history of a run (`timers_keep_schedule`).

That every period is positive is not a fact of the timers: a command asks for any number of
seconds, and `Stage.period?` turns away those that round to nothing.
-/
import StageScript.Proofs.Run.Calls
import StageScript.Proofs.Timers.Schedule

namespace StageScript

open Timers (Leads)

/-! ## 1. The operations of commands -/

/-- A period is positive, and not shorter than the shortest one. -/
theorem Stage.period?_spec {config : RunConfig} {seconds : Float} {period : Duration}
    (h : period? config seconds = some period) :
    0 < period.nanos ∧ config.minPeriod.nanos ≤ period.nanos := by
  unfold period? at h
  split at h
  · simp at h
  · rename_i d _
    split at h
    · simp at h
    · rename_i hne
      obtain rfl := Option.some.inj h
      have hpos : d.nanos ≠ 0 := fun h0 => hne (Duration.ext h0)
      unfold Duration.max
      split <;> omega

namespace Scene

/-- The operations on timers that a command does. -/
def timerOps (s : Scene) (line : Nat) : Command → List Timers.Op
  | .act _ => []
  | .on .click _ => []
  | .on (.every seconds) c =>
    match Stage.period? s.config seconds with
    | none => []
    | some period => [.register period ⟨line, c⟩]
  | .on (.key key) c => if s.keys.isDown key then s.timerOps line c else []

theorem admitted_of_mem_timerOps {s : Scene} {line : Nat} {op : Timers.Op} :
    ∀ {c : Command}, op ∈ s.timerOps line c → op.Admitted s.config.minPeriod
  | .act _, h => absurd h List.not_mem_nil
  | .on .click _, h => absurd h List.not_mem_nil
  | .on (.every seconds) c, h => by
    simp only [timerOps] at h
    split at h
    · exact absurd h List.not_mem_nil
    · rename_i period hperiod
      obtain rfl := List.mem_singleton.mp h
      exact Stage.period?_spec hperiod
  | .on (.key key) c, h => by
    simp only [timerOps] at h
    split at h
    · exact admitted_of_mem_timerOps h
    · exact absurd h List.not_mem_nil

end Scene

namespace Stage

/-- **A command does to the timers what its operations say.** -/
theorem Executed.leads {line : Nat} {c : Command} {s s' : Stage}
    {result : Except RunError (Option Float)} (h : Executed line c s s' result) :
    Leads (s.scene.timerOps line c) s.scene.timers s'.scene.timers := by
  induction h with
  | act a s =>
    have htimers := (s.scene.perform_frame line a).timers
    simp only [htimers]
    exact Timers.leads_nil _
  | listen c s => exact Timers.leads_nil _
  | refused c s hperiod =>
    simp only [Scene.timerOps, hperiod]
    exact Timers.leads_nil _
  | register hperiod hregister =>
    simp only [Scene.timerOps, hperiod]
    exact Timers.leads_register hregister
  | up c s hup =>
    simp only [Scene.timerOps, hup]
    exact Timers.leads_nil _
  | down hdown _ ih =>
    simp only [Scene.timerOps, hdown]
    exact ih

/-- The operations on timers that a list of statements does. -/
def timerOps : List Statement → Stage → List Timers.Op
  | [], _ => []
  | st :: sts, s =>
    s.scene.timerOps st.line st.command ++
      match s.run st with
      | .ok s => timerOps sts s
      | .error _ => []

theorem leads_of_runAll : ∀ (sts : List Statement) {s s' : Stage}, runAll sts s = .ok s' →
    Leads (timerOps sts s) s.scene.timers s'.scene.timers
  | [], s, s', h => by
    obtain rfl := Except.ok.inj h
    exact Timers.leads_nil _
  | st :: sts, s, s', h => by
    simp only [runAll] at h
    split at h
    · simp at h
    · rename_i s₁ hrun
      obtain ⟨s₂, result, hexec, rfl⟩ := executed_of_run hrun
      have hrest := leads_of_runAll sts h
      rw [noted_scene] at hrest
      simp only [timerOps, hrun]
      exact hexec.leads.append hrest

theorem config_of_run {st : Statement} {s s' : Stage} (h : s.run st = .ok s') :
    s'.scene.config = s.scene.config := by
  have hstable := Scene.stable_config s.scene.config
  have hall : runAll [st] s = .ok s' := by simp only [runAll, h]
  exact scene_of_runAll hstable.perform hstable.listen hstable.timers [st] hall rfl

theorem admitted_of_mem_timerOps {op : Timers.Op} : ∀ {sts : List Statement} {s : Stage},
    op ∈ timerOps sts s → op.Admitted s.scene.config.minPeriod
  | [], _, h => absurd h List.not_mem_nil
  | st :: sts, s, h => by
    rcases List.mem_append.mp h with h | h
    · exact Scene.admitted_of_mem_timerOps h
    · split at h
      · rename_i s₁ hrun
        rw [← config_of_run hrun]
        exact admitted_of_mem_timerOps h
      · exact absurd h List.not_mem_nil

end Stage

/-! ## 2. The operations of calls -/

namespace Run

variable {r r' : Run}

/-- The operations of a setup. -/
def setupOps (r : Run) : List Timers.Op :=
  .clear :: Stage.timerOps r.script.setup r.begun.stage

/-- The operations of an update. -/
def updateOps (r : Run) : List Timers.Op :=
  if r.isRunning then Stage.timerOps r.script.perFrame r.stage else []

/-- The operations of a step of the clock. -/
def advanceOps (r : Run) (dt : Duration) : List Timers.Op :=
  if r.isRunning then
    .advance dt :: match r.stage.scene.timers.advance dt with
      | .error _ => []
      | .ok (fired, ts) => Stage.timerOps fired (r.aged.withTimers ts).stage
  else []

/-- The operations of what the person at the host does. -/
def inputOps (r : Run) : Input → List Timers.Op
  | .click x y =>
    if r.isRunning then Stage.timerOps r.stage.scene.clicks (r.pointed x y).stage else []
  | _ => []

/-- The operations on timers that a call does. -/
def timerOps (r : Run) : Call → List Timers.Op
  | .setup => r.setupOps
  | .update => r.updateOps
  | .advance dt => r.advanceOps dt
  | .frame dt _ => r.advanceOps dt ++ match r.advance dt with
    | .ok r => r.updateOps
    | .error _ => []
  | .preview _ => r.setupOps ++ [.clear]
  | .stop => [.clear]
  | .load _ => [.clear]
  | .input i => r.inputOps i
  | .draw _ => []
  | .setAssets _ => []
  | .takeDiagnostics => []
  | .takeSounds => []

/-- The operations on timers that a history does. -/
def historyOps (r : Run) : List Call → List Timers.Op
  | [] => []
  | c :: cs => r.timerOps c ++ match r.call c with
    | .ok (_, r) => r.historyOps cs
    | .error _ => []

theorem leads_of_carryOut {sts : List Statement} (h : r.carryOut sts = .ok r') :
    Leads (Stage.timerOps sts r.stage) r.stage.scene.timers r'.stage.scene.timers := by
  obtain ⟨stage, hrun, rfl⟩ := exists_of_carryOut h
  exact Stage.leads_of_runAll sts hrun

theorem leads_of_setup (h : r.setup = .ok r') :
    Leads r.setupOps r.stage.scene.timers r'.stage.scene.timers := by
  obtain ⟨r₁, hrun, rfl⟩ := exists_of_setup h
  have hrest := leads_of_carryOut hrun
  exact (Timers.leads_clear _).append hrest

theorem leads_of_update (h : r.update = .ok r') :
    Leads r.updateOps r.stage.scene.timers r'.stage.scene.timers := by
  rcases cases_of_update h with ⟨hphase, hrun⟩ | ⟨hphase, rfl⟩
  · rw [updateOps, if_pos (r.isRunning_iff.mpr hphase)]
    exact leads_of_carryOut hrun
  · rw [updateOps, if_neg (r'.isRunning_iff.not.mpr hphase)]
    exact Timers.leads_nil _

theorem leads_of_advance {dt : Duration} (h : r.advance dt = .ok r') :
    Leads (r.advanceOps dt) r.stage.scene.timers r'.stage.scene.timers := by
  rcases cases_of_advance h with ⟨hphase, fired, ts, hts, hrun⟩ | ⟨hphase, rfl⟩
  · rw [advanceOps, if_pos (r.isRunning_iff.mpr hphase), hts]
    exact (Timers.leads_advance hts).append (leads_of_carryOut hrun)
  · rw [advanceOps, if_neg (r'.isRunning_iff.not.mpr hphase)]
    exact Timers.leads_nil _

theorem leads_of_dispatch {i : Input} (h : r.dispatch i = .ok r') :
    Leads (r.inputOps i) r.stage.scene.timers r'.stage.scene.timers := by
  cases i with
  | keyDown key =>
    obtain rfl := Except.ok.inj h
    exact Timers.leads_nil _
  | keyUp key =>
    obtain rfl := Except.ok.inj h
    exact Timers.leads_nil _
  | click x y =>
    rcases cases_of_click h with ⟨hphase, hrun⟩ | ⟨hphase, rfl⟩
    · rw [inputOps, if_pos (r.isRunning_iff.mpr hphase)]
      exact leads_of_carryOut hrun
    · rw [inputOps, if_neg (r'.isRunning_iff.not.mpr hphase)]
      exact Timers.leads_nil _

theorem draw_timers (r : Run) (ready : Ready) :
    (r.draw ready).2.stage.scene.timers = r.stage.scene.timers := by
  rcases r.draw_scene ready with h | h
  · rw [h]
  · rw [h]
    rfl

theorem leads_of_stop (r : Run) :
    Leads [.clear] r.stage.scene.timers r.stop.stage.scene.timers := by
  rw [r.stop_scene]
  exact Timers.leads_clear _

/-- **A call does to the timers what its operations say.** -/
theorem leads_of_called {c : Call} {a : Answer} (hcall : r.call c = .ok (a, r')) :
    Leads (r.timerOps c) r.stage.scene.timers r'.stage.scene.timers := by
  cases called_of_call hcall with
  | setup h => exact leads_of_setup h
  | update h => exact leads_of_update h
  | advance h => exact leads_of_advance h
  | draw ready =>
    rw [draw_timers]
    exact Timers.leads_nil _
  | frame ready ha hu =>
    simp only [timerOps, ha]
    rw [draw_timers]
    exact (leads_of_advance ha).append (leads_of_update hu)
  | @preview r₁ ready h =>
    have hstop := leads_of_stop (r₁.draw ready).2
    rw [draw_timers] at hstop
    exact (leads_of_setup h).append hstop
  | stop => exact leads_of_stop r
  | load script => exact leads_of_stop r
  | setAssets assets => exact Timers.leads_nil _
  | input h => exact leads_of_dispatch h
  | takeDiagnostics => exact Timers.leads_nil _
  | takeSounds => exact Timers.leads_nil _

theorem leads_of_calls : ∀ (cs : List Call) {r r' : Run} {as : List Answer},
    r.calls cs = .ok (as, r') → Leads (r.historyOps cs) r.stage.scene.timers r'.stage.scene.timers
  | [], r, r', _, h => by
    obtain ⟨-, rfl⟩ := Prod.mk.inj (Except.ok.inj h)
    exact Timers.leads_nil _
  | c :: cs, r, r', _, h => by
    obtain ⟨a, r₁, as₁, hc, hcs, -⟩ := exists_of_calls_cons h
    simp only [historyOps, hc]
    exact (leads_of_called hc).append (leads_of_calls cs hcs)

/-! ## 3. Every registered period is admitted -/

/-- All operations are admitted by the settings of the run. -/
def Admits (r : Run) (ops : List Timers.Op) : Prop :=
  ∀ op ∈ ops, op.Admitted r.stage.scene.config.minPeriod

theorem Admits.append {ops ops' : List Timers.Op} (h : r.Admits ops) (h' : r.Admits ops') :
    r.Admits (ops ++ ops') := by
  intro op hop
  rcases List.mem_append.mp hop with hop | hop
  · exact h op hop
  · exact h' op hop

theorem admits_nil (r : Run) : r.Admits [] := fun _ h => absurd h List.not_mem_nil

theorem admits_clear (r : Run) : r.Admits [.clear] := by
  intro op hop
  obtain rfl := List.mem_singleton.mp hop
  trivial

/-- Only the settings matter. -/
theorem Admits.of_config {ops : List Timers.Op} (h : r'.Admits ops)
    (hconfig : r'.stage.scene.config = r.stage.scene.config) : r.Admits ops := by
  unfold Admits at h ⊢
  rw [hconfig] at h
  exact h

theorem admits_statementOps (r : Run) (sts : List Statement) :
    r.Admits (Stage.timerOps sts r.stage) :=
  fun _ hop => Stage.admitted_of_mem_timerOps hop

theorem admits_setupOps (r : Run) : r.Admits r.setupOps :=
  r.admits_clear.append ((r.begun.admits_statementOps _).of_config rfl)

theorem admits_updateOps (r : Run) : r.Admits r.updateOps := by
  unfold updateOps
  split
  · exact r.admits_statementOps _
  · exact r.admits_nil

theorem admits_advanceOps (r : Run) (dt : Duration) : r.Admits (r.advanceOps dt) := by
  unfold advanceOps
  split
  · have hadvance : r.Admits [.advance dt] := by
      intro op hop
      obtain rfl := List.mem_singleton.mp hop
      trivial
    refine hadvance.append ?_
    split
    · exact r.admits_nil
    · rename_i fired ts _
      exact ((r.aged.withTimers ts).admits_statementOps fired).of_config rfl
  · exact r.admits_nil

theorem admits_inputOps (r : Run) (i : Input) : r.Admits (r.inputOps i) := by
  cases i with
  | click x y =>
    simp only [inputOps]
    split
    · exact ((r.pointed x y).admits_statementOps _).of_config rfl
    · exact r.admits_nil
  | _ => exact r.admits_nil

/-- **A call registers only admitted periods.** -/
theorem admits_timerOps (r : Run) (c : Call) : r.Admits (r.timerOps c) := by
  cases c with
  | setup => exact r.admits_setupOps
  | update => exact r.admits_updateOps
  | advance dt => exact r.admits_advanceOps dt
  | frame dt ready =>
    refine (r.admits_advanceOps dt).append ?_
    split
    · rename_i r₁ ha
      have hconfig : r₁.stage.scene.config = r.stage.scene.config :=
        (Scene.stable_config _).of_advance ha rfl
      exact r₁.admits_updateOps.of_config hconfig
    · exact r.admits_nil
  | preview ready => exact r.admits_setupOps.append r.admits_clear
  | stop => exact r.admits_clear
  | load script => exact r.admits_clear
  | input i => exact r.admits_inputOps i
  | _ => exact r.admits_nil

theorem admits_historyOps : ∀ (cs : List Call) (r : Run), r.Admits (r.historyOps cs)
  | [], r => r.admits_nil
  | c :: cs, r => by
    refine (r.admits_timerOps c).append ?_
    split
    · rename_i a r₁ hc
      have hconfig : r₁.stage.scene.config = r.stage.scene.config :=
        (Scene.stable_config _).of_called (called_of_call hc) rfl
      exact (admits_historyOps cs r₁).of_config hconfig
    · exact r.admits_nil

/-! ## 4. The timers of every run -/

/-- In every state that a run reaches its timers are regular. -/
theorem regular_of_calls {script : Script} {config : RunConfig} {cs : List Call}
    {as : List Answer} {r : Run} (h : (Run.new script config).calls cs = .ok (as, r)) :
    r.stage.scene.timers.Regular config.minPeriod := by
  obtain ⟨tallies, hreplay⟩ := leads_of_calls cs h []
  have hadmits := admits_historyOps cs (Run.new script config)
  exact (Watched.Kept.start.replay hadmits hreplay).regular

/-- **The timers of a run keep their schedule.**  In every state that a run reaches its timers
are regular: positive periods that are not shorter than the shortest one, a next tick within one
period behind the clock, ascending numbers below the next one.  A timer has ticked once for every
whole period since its registration, whatever the steps of the clock were.  And from such a
state the loop that fires ticks comes to an end at any time: there is no endless sequence of
rounds, and the number of rounds computed beforehand cuts none off. -/
theorem timers_keep_schedule {script : Script} {config : RunConfig} {cs : List Call}
    {as : List Answer} {r : Run} (h : (Run.new script config).calls cs = .ok (as, r)) :
    r.stage.scene.timers.Regular config.minPeriod ∧
      (∃ tallies,
        Watched.start.replay? ((Run.new script config).historyOps cs)
          = some ⟨r.stage.scene.timers, tallies⟩ ∧
        List.Forall₂ (Tally.Counts r.stage.scene.timers.clock)
          r.stage.scene.timers.timers tallies) ∧
      ∀ target,
        Acc (fun ts' ts => Timers.Round target ts ts') r.stage.scene.timers.timers ∧
        ∀ n, Timers.ticksDue target r.stage.scene.timers.timers ≤ n →
          Timers.fire target n r.stage.scene.timers.timers
            = Timers.fire target (Timers.ticksDue target r.stage.scene.timers.timers)
                r.stage.scene.timers.timers := by
  obtain ⟨tallies, hreplay⟩ := leads_of_calls cs h []
  have hadmits : ∀ op ∈ (Run.new script config).historyOps cs, op.Admitted config.minPeriod :=
    admits_historyOps cs (Run.new script config)
  have hkept : Watched.Kept config.minPeriod ⟨r.stage.scene.timers, tallies⟩ :=
    Watched.Kept.start.replay hadmits hreplay
  have hproper := hkept.regular.proper
  refine ⟨hkept.regular, ⟨tallies, hreplay, hkept.counts⟩, fun target => ⟨hproper.acc_round, ?_⟩⟩
  intro n hn
  exact Timers.fire_eq_of_ticksDue_le _ _ hproper hn (Nat.le_refl _)

/-- A script with a timer of one second. -/
def tickingScript : Script := ⟨[⟨1, .on (.every 1.0) (.act (.say "tick"))⟩], []⟩

theorem timers_keep_schedule_tickingScript :
    ∃ as r tallies,
      (Run.new tickingScript (.seeded 0)).calls
          [.setup, .advance (.ofMillis 1500), .frame (.ofMillis 1000) .always] = .ok (as, r) ∧
        r.stage.scene.timers.timers.length = 1 ∧
        r.stage.scene.timers.Regular (RunConfig.seeded 0).minPeriod ∧
        List.Forall₂ (Tally.Counts r.stage.scene.timers.clock)
          r.stage.scene.timers.timers tallies := by
  have hrun : (Run.new tickingScript (.seeded 0)).endsIn
      [.setup, .advance (.ofMillis 1500), .frame (.ofMillis 1000) .always]
      (fun r => r.stage.scene.timers.timers.length == 1) = true := by decide +kernel
  obtain ⟨as, r, hcalls, hone⟩ := exists_of_endsIn hrun
  obtain ⟨hregular, ⟨tallies, -, hticks⟩, -⟩ := timers_keep_schedule hcalls
  exact ⟨as, r, tallies, hcalls, by simpa using hone, hregular, hticks⟩

end Run
end StageScript

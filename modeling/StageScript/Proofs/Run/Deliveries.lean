/-
# A call delivers what waited before it

A click reaches listeners and a step of the clock reaches timers, and what these carry out may
register more of both.  A call carries out a list of statements that is settled before the first of
them (`agenda`), on a run that is settled as well (`entered`): the listeners that a click finds, and
the ticks that are due when the clock moves.  What is registered meanwhile goes behind what was
there, and waits for a later call.

The agenda does not say which commands are carried out, since a guard passes on to the command
behind it only while its key is held.  But no statement moves a key, so this is settled beforehand
too (`Stage.delivered_of_runAll`), and the events that a call writes are those and no others
(`Delivers`).  That a new timer does not tick in the call that sets it is the schedule of timers:
in every state that a run reaches, all timers are due behind the clock.
-/
import StageScript.Proofs.Run.Timetable
import StageScript.Proofs.Run.Provenance
import StageScript.Proofs.Stage.Registrations
import StageScript.Proofs.Stage.Variables

namespace StageScript
namespace Run

variable {r r' : Run}

/-! ## 1. What a call is about to do -/

/-- What a call carries out on a running run, settled before the first statement. -/
def agenda (r : Run) : Call → List Statement
  | .setup | .preview _ => r.script.setup
  | .update => r.script.perFrame
  | .advance dt => ((r.stage.scene.timers.advance dt).toOption.map Prod.fst).getD []
  | .frame dt _ =>
    ((r.stage.scene.timers.advance dt).toOption.map Prod.fst).getD [] ++ r.script.perFrame
  | .input (.click _ _) => r.stage.scene.clicks
  | _ => []

/-- The running run on which a call carries out its first statement. -/
def entered (r : Run) : Call → Run
  | .setup | .preview _ => r.begun
  | .advance dt | .frame dt _ =>
    r.aged.withTimers
      (((r.stage.scene.timers.advance dt).toOption.map Prod.snd).getD r.stage.scene.timers)
  | .input (.click x y) => r.pointed x y
  | _ => r

theorem commands_begun (r : Run) :
    r.begun.stage.journal.commands = r.stage.journal.commands :=
  (Journal.commands_record _ _).trans (List.append_nil _)

/-- No command is carried out before the first one. -/
theorem commands_entered (r : Run) (c : Call) :
    (r.entered c).stage.journal.commands = r.stage.journal.commands := by
  cases c with
  | setup => exact r.commands_begun
  | preview ready => exact r.commands_begun
  | input i => cases i <;> rfl
  | _ => rfl

theorem commands_stop (r : Run) : r.stop.stage.journal.commands = r.stage.journal.commands := by
  rw [journal_stop]
  split
  · exact (Journal.commands_record _ _).trans (List.append_nil _)
  · rfl

/-- A call that does not begin anew finds the listeners and the timers that were registered. -/
theorem entered_keeps {minPeriod : Duration} (hregular : r.stage.scene.timers.Regular minPeriod)
    {c : Call} (hc : c.begins = false) :
    (r.entered c).stage.scene.clicks = r.stage.scene.clicks ∧
      (r.entered c).stage.scene.timers.timers.map Timer.id
        = r.stage.scene.timers.timers.map Timer.id := by
  have hmoved (dt : Duration) :
      (((r.stage.scene.timers.advance dt).toOption.map Prod.snd).getD
        r.stage.scene.timers).timers.map Timer.id = r.stage.scene.timers.timers.map Timer.id := by
    cases hadvance : r.stage.scene.timers.advance dt with
    | error left => rfl
    | ok x =>
      obtain ⟨fired, ts⟩ := x
      obtain ⟨ticks, htick, -⟩ := Timers.exists_tick_of_advance hadvance
      obtain ⟨-, -, hfired⟩ := Timers.fired_of_tick hregular.proper htick
      simp only [Except.toOption, Option.map_some, Option.getD_some, hfired.rest, List.map_map]
      rfl
  cases c with
  | setup => simp [Call.begins] at hc
  | preview ready => simp [Call.begins] at hc
  | advance dt => exact ⟨rfl, hmoved dt⟩
  | frame dt ready => exact ⟨rfl, hmoved dt⟩
  | input i => cases i <;> exact ⟨rfl, rfl⟩
  | _ => exact ⟨rfl, rfl⟩

/-! ## 2. What it has done -/

/-- The second run is what the call leaves of the first one: it has carried out the commands of the
agenda, and if it is still running, it has the listeners and the timers of the agenda behind those
that were there. -/
structure Delivers (r : Run) (c : Call) (r' : Run) : Prop where
  commands : r'.stage.journal.commands = r.stage.journal.commands
    ++ (r.agenda c).flatMap (Statement.commands (r.entered c).stage.scene.keys)
  clicks : r'.phase = .running → r'.stage.scene.clicks = (r.entered c).stage.scene.clicks
    ++ (r.agenda c).filterMap (Statement.listener? (r.entered c).stage.scene.keys)
  timers : r'.phase = .running → r'.stage.scene.timers = (r.entered c).stage.scene.timers.joined
    ((r.agenda c).filterMap
      (Statement.timer? (r.entered c).stage.scene.config (r.entered c).stage.scene.keys))

/-- What is done behind the last statement adds no command, and changes the registries only to end
the run. -/
theorem delivers_of_delivered {c : Call} {s : Stage}
    (h : Stage.Delivered (r.agenda c) (r.entered c).stage s)
    (hjournal : r'.stage.journal.commands = s.journal.commands)
    (hscene : r'.phase = .running →
      r'.stage.scene.clicks = s.scene.clicks ∧ r'.stage.scene.timers = s.scene.timers) :
    Delivers r c r' where
  commands := by rw [hjournal, h.commands, r.commands_entered]
  clicks hphase := (hscene hphase).1.trans h.clicks
  timers hphase := (hscene hphase).2.trans h.timers

theorem delivered_of_carryOut {sts : List Statement} (h : r.carryOut sts = .ok r') :
    Stage.Delivered sts r.stage r'.stage := by
  obtain ⟨stage, hrun, rfl⟩ := exists_of_carryOut h
  exact Stage.delivered_of_runAll hrun

theorem delivered_of_setup (h : r.setup = .ok r') :
    Stage.Delivered r.script.setup r.begun.stage r'.stage := by
  obtain ⟨r₁, hrun, rfl⟩ := exists_of_setup h
  have hdelivered := delivered_of_carryOut hrun
  exact ⟨hdelivered.commands, hdelivered.clicks, hdelivered.timers, hdelivered.keys,
    hdelivered.config⟩

theorem delivered_of_advance {dt : Duration} (h : r.advance dt = .ok r')
    (hphase : r.phase = .running) :
    Stage.Delivered (r.agenda (.advance dt)) (r.entered (.advance dt)).stage r'.stage := by
  rcases cases_of_advance h with ⟨-, fired, ts, hadvance, hrun⟩ | ⟨hnot, -⟩
  · simp only [agenda, entered, hadvance]
    exact delivered_of_carryOut hrun
  · exact absurd hphase hnot

theorem script_of_advance {dt : Duration} (h : r.advance dt = .ok r') : r'.script = r.script := by
  rcases cases_of_advance h with ⟨-, fired, ts, -, hrun⟩ | ⟨-, rfl⟩
  · obtain ⟨stage, -, rfl⟩ := exists_of_carryOut hrun
    rfl
  · rfl

theorem delivered_of_update (h : r.update = .ok r') (hphase : r.phase = .running) :
    Stage.Delivered r.script.perFrame r.stage r'.stage := by
  rcases cases_of_update h with ⟨-, hrun⟩ | ⟨hnot, -⟩
  · exact delivered_of_carryOut hrun
  · exact absurd hphase hnot

/-- What a drawing uses up is no command, no listener and no timer. -/
theorem draw_keeps (r : Run) (ready : Ready) :
    (r.draw ready).2.stage.journal = r.stage.journal ∧
      (r.draw ready).2.stage.scene.clicks = r.stage.scene.clicks ∧
      (r.draw ready).2.stage.scene.timers = r.stage.scene.timers := by
  unfold draw
  split <;> exact ⟨rfl, rfl, rfl⟩

/-- **Every call delivers its agenda.** -/
theorem delivers_of_called {c : Call} {a : Answer} (h : Called r c a r')
    (hphase : r.phase = .running) : Delivers r c r' := by
  cases h with
  | setup h => exact delivers_of_delivered (delivered_of_setup h) rfl fun _ => ⟨rfl, rfl⟩
  | update h =>
    exact delivers_of_delivered (delivered_of_update h hphase) rfl fun _ => ⟨rfl, rfl⟩
  | advance h =>
    exact delivers_of_delivered (delivered_of_advance h hphase) rfl fun _ => ⟨rfl, rfl⟩
  | draw ready =>
    obtain ⟨hjournal, hscene⟩ := r.draw_keeps ready
    exact delivers_of_delivered (.nil r.stage) (congrArg Journal.commands hjournal) fun _ => hscene
  | @frame dt r₁ r₂ ready ha hu =>
    obtain ⟨hjournal, hscene⟩ := r₂.draw_keeps ready
    have hupdate := delivered_of_update hu ((phase_of_advance ha).trans hphase)
    rw [script_of_advance ha] at hupdate
    exact delivers_of_delivered ((delivered_of_advance ha hphase).append hupdate)
      (congrArg Journal.commands hjournal) fun _ => hscene
  | @preview r₁ ready h =>
    obtain ⟨hjournal, -⟩ := r₁.draw_keeps ready
    exact delivers_of_delivered (delivered_of_setup h)
      ((commands_stop _).trans (congrArg Journal.commands hjournal))
      fun hrunning => absurd hrunning (stop_not_running _)
  | stop =>
    exact delivers_of_delivered (.nil r.stage) r.commands_stop
      fun hrunning => absurd hrunning r.stop_not_running
  | load script =>
    exact delivers_of_delivered (.nil r.stage) r.commands_stop
      fun hrunning => absurd hrunning r.stop_not_running
  | setAssets assets => exact delivers_of_delivered (.nil r.stage) rfl fun _ => ⟨rfl, rfl⟩
  | @input i r' h =>
    cases i with
    | keyDown key =>
      obtain rfl := Except.ok.inj h
      exact delivers_of_delivered (.nil r.stage) rfl fun _ => ⟨rfl, rfl⟩
    | keyUp key =>
      obtain rfl := Except.ok.inj h
      exact delivers_of_delivered (.nil r.stage) rfl fun _ => ⟨rfl, rfl⟩
    | click x y =>
      rcases cases_of_click h with ⟨-, hrun⟩ | ⟨hnot, -⟩
      · exact delivers_of_delivered (delivered_of_carryOut hrun) rfl fun _ => ⟨rfl, rfl⟩
      · exact absurd hphase hnot
  | takeDiagnostics => exact delivers_of_delivered (.nil r.stage) rfl fun _ => ⟨rfl, rfl⟩
  | takeSounds => exact delivers_of_delivered (.nil r.stage) rfl fun _ => ⟨rfl, rfl⟩

/-! ## 3. Clicks and steps of the clock -/

/-- A click first sets the two pointer variables and no others, and then reaches the listeners. -/
theorem click_delivers {x y : Float} {a : Answer} (h : r.call (.input (.click x y)) = .ok (a, r'))
    (hphase : r.phase = .running) :
    (∀ name, (r.entered (.input (.click x y))).stage.scene.vars.get? name
        = if name = r.stage.scene.config.pointerY then some y
          else if name = r.stage.scene.config.pointerX then some x
          else r.stage.scene.vars.get? name) ∧
      Stage.runAll r.stage.scene.clicks (r.entered (.input (.click x y))).stage = .ok r'.stage := by
  constructor
  · intro name
    show ((r.stage.scene.vars.set _ x).set _ y).get? name = _
    rw [Variables.get?_set, Variables.get?_set]
  · cases called_of_call h with
    | input h =>
      rcases cases_of_click h with ⟨-, hrun⟩ | ⟨hnot, -⟩
      · obtain ⟨stage, hstage, rfl⟩ := exists_of_carryOut hrun
        exact hstage
      · exact absurd hphase hnot

/-- A step of the clock first moves the timers that are there behind the new time, and then carries
out the ticks up to it, which are those of these timers, each once, by time and by number. -/
theorem advance_delivers {minPeriod dt : Duration} {a : Answer}
    (hregular : r.stage.scene.timers.Regular minPeriod)
    (h : r.call (.advance dt) = .ok (a, r')) (hphase : r.phase = .running) :
    ∃ (ticks : List (Timer × Nat)) (target : Duration),
      target.nanos = r.stage.scene.timers.clock.nanos + dt.nanos ∧
      (∀ t k, (t, k) ∈ ticks ↔ t ∈ r.stage.scene.timers.timers ∧ t.tickTime k ≤ target.nanos) ∧
      ticks.Nodup ∧ ticks.Pairwise Timers.TickBefore ∧
      (r.entered (.advance dt)).stage.scene.timers
        = ⟨r.stage.scene.timers.timers.map fun t => t.later (t.ticksUntil target),
            r.stage.scene.timers.nextId, target⟩ ∧
      r.agenda (.advance dt) = ticks.map (fun p => p.1.statement) ∧
      Stage.runAll (ticks.map fun p => p.1.statement) (r.entered (.advance dt)).stage
        = .ok r'.stage := by
  cases called_of_call h with
  | advance h =>
    rcases cases_of_advance h with ⟨-, fired, ts, hadvance, hrun⟩ | ⟨hnot, -⟩
    · obtain ⟨ticks, htick, rfl⟩ := Timers.exists_tick_of_advance hadvance
      have hproper := hregular.proper
      obtain ⟨hclock, hnext, hfired⟩ := Timers.fired_of_tick hproper htick
      obtain ⟨pairs, rfl, hpairs⟩ := hfired.exists_pairs hproper
      have hsorted := hfired.pairwise_tickBefore hpairs
      have hstatements : (pairs.map fun p => p.1.later p.2).map Timer.statement
          = pairs.map fun p => p.1.statement := List.map_map
      refine ⟨pairs, ts.clock, hclock, hpairs, Timers.nodup_of_tickBefore hsorted, hsorted, ?_, ?_,
        ?_⟩
      · simp only [entered, hadvance]
        show ts = _
        rw [← hfired.rest, ← hnext]
      · simp only [agenda, hadvance, ← hstatements]
        rfl
      · obtain ⟨stage, hstage, rfl⟩ := exists_of_carryOut hrun
        simp only [entered, hadvance]
        rwa [hstatements] at hstage
    · exact absurd hphase hnot

/-- **A call delivers what waited before it.**  From a running state that is reached, a click first
sets the two pointer variables and then carries out the listeners that are registered, each once
and in their order; a step of the clock carries out the ticks that are due, each once and in their
order.  In this and in every other call the commands that are carried out are those of a list that
is settled before the first of them; what the call registers stands behind what was registered; and
no timer that is there behind the call was due in it. -/
theorem call_delivers_what_waited {script : Script} {config : RunConfig} {cs : List Call}
    {as : List Answer} (h : (Run.new script config).calls cs = .ok (as, r))
    (hphase : r.phase = .running) :
    (∀ x y a r', r.call (.input (.click x y)) = .ok (a, r') →
        (∀ name, (r.entered (.input (.click x y))).stage.scene.vars.get? name
            = if name = config.pointerY then some y
              else if name = config.pointerX then some x
              else r.stage.scene.vars.get? name) ∧
          r.agenda (.input (.click x y)) = r.stage.scene.clicks ∧
          Stage.runAll r.stage.scene.clicks (r.entered (.input (.click x y))).stage
            = .ok r'.stage) ∧
      (∀ dt a r', r.call (.advance dt) = .ok (a, r') →
        ∃ (ticks : List (Timer × Nat)) (target : Duration),
          target.nanos = r.stage.scene.timers.clock.nanos + dt.nanos ∧
          (∀ t k, (t, k) ∈ ticks ↔
            t ∈ r.stage.scene.timers.timers ∧ t.tickTime k ≤ target.nanos) ∧
          ticks.Nodup ∧ ticks.Pairwise Timers.TickBefore ∧
          (r.entered (.advance dt)).stage.scene.timers
            = ⟨r.stage.scene.timers.timers.map fun t => t.later (t.ticksUntil target),
                r.stage.scene.timers.nextId, target⟩ ∧
          r.agenda (.advance dt) = ticks.map (fun p => p.1.statement) ∧
          Stage.runAll (ticks.map fun p => p.1.statement) (r.entered (.advance dt)).stage
            = .ok r'.stage) ∧
      ∀ c a r', r.call c = .ok (a, r') →
        Delivers r c r' ∧
          (c.begins = false →
            (r.entered c).stage.scene.clicks = r.stage.scene.clicks ∧
              (r.entered c).stage.scene.timers.timers.map Timer.id
                = r.stage.scene.timers.timers.map Timer.id) ∧
          ∀ t ∈ r'.stage.scene.timers.timers,
            r'.stage.scene.timers.clock.nanos < t.due.nanos := by
  have hregular := regular_of_calls h
  refine ⟨?_, ?_, ?_⟩
  · intro x y a r' hc
    obtain ⟨hvars, hrun⟩ := click_delivers hc hphase
    rw [config_of_calls h] at hvars
    exact ⟨hvars, rfl, hrun⟩
  · intro dt a r' hc
    exact advance_delivers hregular hc hphase
  · intro c a r' hc
    refine ⟨delivers_of_called (called_of_call hc) hphase, entered_keeps hregular, ?_⟩
    -- the schedule of the state behind the call, which is reached as well
    intro t ht
    exact ((regular_of_calls (calls_concat h hc)).onTime t ht).clock_lt_due

/-- A click on this script registers one more listener, and one more timer once its timer has
ticked; both would register more. -/
def echoingScript : Script :=
  ⟨[⟨1, .on .click (.on .click (.on .click (.act (.say "again"))))⟩,
    ⟨2, .on (.every 1.0) (.on .click (.on (.every 1.0) (.on .click (.act (.say "late")))))⟩], []⟩

theorem call_delivers_what_waited_echoingScript :
    ∃ as r a r',
      (Run.new echoingScript (.seeded 0)).calls [.setup, .advance (.ofMillis 1000)] = .ok (as, r) ∧
        r.phase = .running ∧ r.stage.scene.clicks.length = 2 ∧
        r.stage.scene.timers.timers.length = 1 ∧
        r.call (.input (.click 1.0 2.0)) = .ok (a, r') ∧
        r'.phase = .running ∧ r'.stage.scene.clicks.length = 3 ∧
        r'.stage.scene.timers.timers.length = 2 ∧
        Stage.runAll r.stage.scene.clicks (r.entered (.input (.click 1.0 2.0))).stage
          = .ok r'.stage ∧
        Delivers r (.input (.click 1.0 2.0)) r' := by
  have hbefore : (Run.new echoingScript (.seeded 0)).endsIn [.setup, .advance (.ofMillis 1000)]
      (fun r => r.phase == .running && r.stage.scene.clicks.length == 2 &&
        r.stage.scene.timers.timers.length == 1) = true := by decide +kernel
  have hbehind : (Run.new echoingScript (.seeded 0)).endsIn
      ([.setup, .advance (.ofMillis 1000)] ++ [.input (.click 1.0 2.0)])
      (fun r => r.phase == .running && r.stage.scene.clicks.length == 3 &&
        r.stage.scene.timers.timers.length == 2) = true := by decide +kernel
  obtain ⟨as, r, hcalls, htest⟩ := exists_of_endsIn hbefore
  obtain ⟨as', r', hcalls', htest'⟩ := exists_of_endsIn hbehind
  simp only [Bool.and_eq_true, beq_iff_eq] at htest htest'
  obtain ⟨⟨hphase, hclicks⟩, htimers⟩ := htest
  obtain ⟨⟨hphase', hclicks'⟩, htimers'⟩ := htest'
  obtain ⟨as₁, r₁, as₂, hfirst, hclick, -, -⟩ := exists_of_calls_append _ hcalls'
  obtain ⟨-, rfl⟩ := Prod.mk.inj (Except.ok.inj (hcalls.symm.trans hfirst))
  obtain ⟨a, r₂, as₃, hcall, hend, -⟩ := exists_of_calls_cons hclick
  obtain ⟨-, rfl⟩ := Prod.mk.inj (Except.ok.inj hend)
  obtain ⟨hclicked, -, hall⟩ := call_delivers_what_waited hcalls hphase
  obtain ⟨-, -, hrun⟩ := hclicked 1.0 2.0 a _ hcall
  obtain ⟨hdelivers, -, -⟩ := hall _ a _ hcall
  exact ⟨as, r, a, _, hcalls, hphase, hclicks, htimers, hcall, hphase', hclicks', htimers', hrun,
    hdelivers⟩

end Run
end StageScript

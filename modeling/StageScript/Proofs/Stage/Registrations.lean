/-
# What statements carry out and register

While statements are carried out, what they find in the registries does not matter to them: they
add listeners and timers behind those that are there and never look at one.  Which commands a
statement reaches depends on its own triggers and on the keys that are held, and no statement moves
a key.

So all of it can be read off beforehand (`Delivered`): the commands that are carried out, with
those behind guards whose keys are held, and what is added to the two registries, in the order of
the statements.  This is shown for one statement by the ways in which its command goes
(`delivered_of_run`) and then for a list of them (`delivered_of_runAll`).
-/
import StageScript.Proofs.Stage.Frame
import StageScript.Proofs.Timers.Schedule

namespace StageScript

/-! ## 1. What is reached -/

namespace Command

/-- The command behind the guards whose keys are held. -/
def reached (keys : Keys) : Command → Command
  | .on (.key key) c => if keys.isDown key then reached keys c else .on (.key key) c
  | c => c

/-- The command, and what it passes on to while keys are held. -/
def passed (keys : Keys) : Command → List Command
  | .on (.key key) c => .on (.key key) c :: if keys.isDown key then passed keys c else []
  | c => [c]

variable {keys : Keys} {key : String} {c : Command}

theorem reached_down (h : keys.isDown key = true) :
    reached keys (.on (.key key) c) = reached keys c := if_pos h

theorem reached_up (h : keys.isDown key = false) :
    reached keys (.on (.key key) c) = .on (.key key) c := if_neg (by simp [h])

theorem passed_down (h : keys.isDown key = true) :
    passed keys (.on (.key key) c) = .on (.key key) c :: passed keys c :=
  congrArg (List.cons _) (if_pos h)

theorem passed_up (h : keys.isDown key = false) :
    passed keys (.on (.key key) c) = [.on (.key key) c] :=
  congrArg (List.cons _) (if_neg (by simp [h]))

end Command

namespace Statement

/-- The commands that are carried out with the statement, by their line and their names. -/
def commands (keys : Keys) (st : Statement) : List (Nat × String) :=
  (st.command.passed keys).map fun c => (st.line, c.tag)

/-- The listener that the statement registers. -/
def listener? (keys : Keys) (st : Statement) : Option Statement :=
  match st.command.reached keys with
  | .on .click c => some ⟨st.line, c⟩
  | _ => none

/-- The timer that the statement registers: its period and what it carries out. -/
def timer? (config : RunConfig) (keys : Keys) (st : Statement) : Option (Duration × Statement) :=
  match st.command.reached keys with
  | .on (.every seconds) c => (Stage.period? config seconds).map (·, ⟨st.line, c⟩)
  | _ => none

end Statement

/-! ## 2. Timers behind those that are there -/

namespace Timers

/-- The timers with more of them behind.  Each of these gets the next number, and its first tick is
one period away. -/
def joined (ts : Timers) (more : List (Duration × Statement)) : Timers :=
  { ts with
    timers := ts.timers ++ (more.zipIdx ts.nextId).map fun x =>
      ⟨x.2, x.1.1, .ofNanos (ts.clock.nanos + x.1.1.nanos), x.1.2⟩
    nextId := ts.nextId + more.length }

@[simp] theorem joined_nil (ts : Timers) : ts.joined [] = ts := by
  obtain ⟨timers, nextId, clock⟩ := ts
  simp [joined]

theorem joined_append (ts : Timers) (more more' : List (Duration × Statement)) :
    ts.joined (more ++ more') = (ts.joined more).joined more' := by
  simp only [joined, List.zipIdx_append, List.map_append, List.length_append, List.append_assoc,
    Nat.add_assoc]

theorem joined_of_register {ts ts' : Timers} {period : Duration} {statement : Statement}
    {id : Nat} (h : ts.register period statement = .ok (id, ts')) :
    ts' = ts.joined [(period, statement)] := by
  obtain ⟨-, due, hdue, rfl⟩ := eq_of_register h
  rw [joined, List.zipIdx_singleton, List.map_singleton, ← hdue, Duration.ofNanos_nanos]
  rfl

end Timers

/-! ## 3. One statement -/

/-- The command that an event tells of. -/
def Event.command? : Event → Option (Nat × String)
  | command line tag => some (line, tag)
  | _ => none

/-- The commands that a journal tells of, in their order. -/
def Journal.commands (j : Journal) : List (Nat × String) := j.events.toList.filterMap Event.command?

theorem Journal.commands_recordAll (j : Journal) (es : List Event) :
    (j.recordAll es).commands = j.commands ++ es.filterMap Event.command? := by
  rw [commands, recordAll_events, List.filterMap_append, commands]

theorem Journal.commands_record (j : Journal) (e : Event) :
    (j.record e).commands = j.commands ++ e.command?.toList := by
  have hone : j.record e = j.recordAll [e] := rfl
  rw [hone, commands_recordAll]
  cases hcommand : e.command? <;> simp [hcommand]

/-- An action tells of no command. -/
theorem Event.OfAction.command? {line : Nat} {e : Event} (h : e.OfAction line) :
    e.command? = none := by
  cases h <;> rfl

namespace Stage

/-- What the statements leave behind on the second stage, all of it read off the statements and the
first stage: the commands that are carried out, and the listeners and timers behind those that were
there. -/
structure Delivered (sts : List Statement) (s s' : Stage) : Prop where
  commands : s'.journal.commands
    = s.journal.commands ++ sts.flatMap (Statement.commands s.scene.keys)
  clicks : s'.scene.clicks
    = s.scene.clicks ++ sts.filterMap (Statement.listener? s.scene.keys)
  timers : s'.scene.timers
    = s.scene.timers.joined (sts.filterMap (Statement.timer? s.scene.config s.scene.keys))
  keys : s'.scene.keys = s.scene.keys
  config : s'.scene.config = s.scene.config

variable {line : Nat} {c : Command} {sts sts' : List Statement} {s s' s'' : Stage}

theorem Delivered.nil (s : Stage) : Delivered [] s s :=
  ⟨by simp, by simp, by simp, rfl, rfl⟩

theorem Delivered.append (h : Delivered sts s s') (h' : Delivered sts' s' s'') :
    Delivered (sts ++ sts') s s'' where
  commands := by
    rw [h'.commands, h.commands, h.keys, List.flatMap_append, List.append_assoc]
  clicks := by
    rw [h'.clicks, h.clicks, h.keys, List.filterMap_append, List.append_assoc]
  timers := by
    rw [h'.timers, h.timers, h.keys, h.config, List.filterMap_append, Timers.joined_append]
  keys := h'.keys.trans h.keys
  config := h'.config.trans h.config

/-- The event of a command, on the same scene. -/
theorem commands_log_command (s : Stage) (line : Nat) (c : Command) :
    (s.log (.command line c.tag)).journal.commands = s.journal.commands ++ [(line, c.tag)] :=
  Journal.commands_record _ _

/-- **What a command leaves behind**, by the way it goes. -/
theorem Executed.delivered {result : Except RunError (Option Float)}
    (h : Executed line c s s' result) : Delivered [⟨line, c⟩] s s' := by
  induction h with
  | act a s =>
    have hframe := s.scene.perform_frame line a
    have hnotes : (s.scene.perform line a).notes.filterMap Event.command? = [] :=
      List.filterMap_eq_nil_iff.mpr fun e he =>
        ((s.scene.perform_sound line a).notes e he).command?
    refine ⟨?_, ?_, ?_, hframe.keys, hframe.config⟩
    · rw [Journal.commands_recordAll, commands_log_command, hnotes, List.append_nil]
      rfl
    · rw [hframe.clicks]
      exact (List.append_nil _).symm
    · rw [hframe.timers]
      exact (Timers.joined_nil _).symm
  | listen c s =>
    refine ⟨?_, rfl, (Timers.joined_nil _).symm, rfl, rfl⟩
    rw [log, Journal.commands_record]
    exact (List.append_nil _).trans (commands_log_command s line _)
  | @refused seconds c s hperiod =>
    refine ⟨commands_log_command s line _, (List.append_nil _).symm, ?_, rfl, rfl⟩
    simp [Statement.timer?, Command.reached, hperiod]
  | @register seconds period c s id ts hperiod hregister =>
    refine ⟨?_, (List.append_nil _).symm, ?_, rfl, rfl⟩
    · rw [log, Journal.commands_record]
      exact (List.append_nil _).trans (commands_log_command s line _)
    · rw [List.filterMap_cons, Statement.timer?, Command.reached.eq_2 _ _ (by simp)]
      simp only [hperiod, Option.map_some, List.filterMap_nil]
      exact Timers.joined_of_register hregister
  | @up key c s hup =>
    refine ⟨?_, ?_, ?_, rfl, rfl⟩
    · rw [commands_log_command, List.flatMap_singleton, Statement.commands, Command.passed_up hup]
      rfl
    · simp [Statement.listener?, Command.reached_up hup]
    · simp [Statement.timer?, Command.reached_up hup]
  | @down key c s s' result hdown _ ih =>
    -- the guard writes its own event, and everything else is done by the command behind it
    refine ⟨?_, ?_, ?_, ih.keys, ih.config⟩
    · have hcommands := ih.commands
      rw [commands_log_command, List.append_assoc] at hcommands
      rw [hcommands]
      simp only [log_scene, List.flatMap_singleton, Statement.commands, Command.passed_down hdown,
        List.map_cons, List.singleton_append]
    · have hclicks := ih.clicks
      simpa only [log_scene, List.filterMap_cons, List.filterMap_nil, Statement.listener?,
        Command.reached_down hdown] using hclicks
    · have htimers := ih.timers
      simpa only [log_scene, List.filterMap_cons, List.filterMap_nil, Statement.timer?,
        Command.reached_down hdown] using htimers

/-- A statement leaves behind what its command does; the report of a failure adds nothing to it. -/
theorem delivered_of_run {st : Statement} (h : s.run st = .ok s') : Delivered [st] s s' := by
  obtain ⟨s₁, result, hexec, rfl⟩ := executed_of_run h
  have hdelivered := hexec.delivered
  cases result with
  | ok x => exact hdelivered
  | error e =>
    refine ⟨?_, hdelivered.clicks, hdelivered.timers, hdelivered.keys, hdelivered.config⟩
    rw [noted, log, Journal.commands_record]
    exact (List.append_nil _).trans hdelivered.commands

/-! ## 4. A list of statements -/

/-- **What statements leave behind can be read off beforehand.** -/
theorem delivered_of_runAll (h : runAll sts s = .ok s') : Delivered sts s s' := by
  induction sts generalizing s with
  | nil =>
    obtain rfl := Except.ok.inj h
    exact .nil s
  | cons st sts ih =>
    rw [runAll_cons] at h
    cases hrun : s.run st with
    | error o => simp [hrun, Except.bind] at h
    | ok s₁ =>
      rw [hrun] at h
      exact (delivered_of_run hrun).append (ih h)

end Stage
end StageScript

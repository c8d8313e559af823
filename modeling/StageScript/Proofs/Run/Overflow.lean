/-
# When a time goes beyond the longest duration

Three additions can go too far: the clock and a step, the clock and the period of a new timer, and
the time of a tick and the period of its timer.  A host that moves the clock knows of the first
one only.  The other two depend on the periods in the script, and those may be almost as long as
the longest duration.  So a clock that stays a duration is not enough
(`clock_fits_and_calls_overflow`): a timer whose ticks are far apart needs room for a tick beyond
the clock, and so does one that a click sets late.

What is enough is room behind the clock for the longest period that stands in the script
(`calls_have_results`).  A setup always has that much, as it puts the clock back (`exists_setup`).
That this covers the timers that tick as well is due to their provenance: the periods of timers are
those of the script in place (`Scene.Traced`).
-/
import StageScript.Proofs.Run.Provenance
import StageScript.Proofs.Run.Timetable

namespace StageScript

/-! ## 1. The longest period of a script -/

/-- The longest period that stands in a command, in nanoseconds; zero if none does. -/
def Command.longestPeriod (config : RunConfig) : Command → Nat
  | .act _ => 0
  | .on (.every seconds) c =>
    max ((Stage.period? config seconds).elim 0 Duration.nanos) (c.longestPeriod config)
  | .on .click c => c.longestPeriod config
  | .on (.key _) c => c.longestPeriod config

/-- The longest period that stands in a script, in nanoseconds. -/
def Script.longestPeriod (config : RunConfig) (script : Script) : Nat :=
  script.statements.foldr (fun st n => max (st.command.longestPeriod config) n) 0

variable {config : RunConfig} {script : Script} {line : Nat} {c : Command}

theorem Command.longestPeriod_le_on (t : Trigger) (c : Command) :
    c.longestPeriod config ≤ (Command.on t c).longestPeriod config := by
  cases t with
  | every seconds => exact Nat.le_max_right _ _
  | click => exact Nat.le_refl _
  | key name => exact Nat.le_refl _

theorem Command.IsPartOf.longestPeriod_le {part : Command} (h : part.IsPartOf c) :
    part.longestPeriod config ≤ c.longestPeriod config := by
  induction h with
  | refl => exact Nat.le_refl _
  | on t _ ih => exact Nat.le_trans ih (Command.longestPeriod_le_on t _)

theorem Script.longestPeriod_le_of_mem {st : Statement} (h : st ∈ script.statements) :
    st.command.longestPeriod config ≤ script.longestPeriod config := by
  unfold longestPeriod
  generalize script.statements = sts at h
  induction sts with
  | nil => exact absurd h List.not_mem_nil
  | cons st' sts ih =>
    rcases List.mem_cons.mp h with rfl | h
    · exact Nat.le_max_left _ _
    · exact Nat.le_trans (ih h) (Nat.le_max_right _ _)

theorem Script.Holds.longestPeriod_le (h : script.Holds line c) :
    c.longestPeriod config ≤ script.longestPeriod config := by
  obtain ⟨st, hst, -, hpart⟩ := h
  exact Nat.le_trans hpart.longestPeriod_le (Script.longestPeriod_le_of_mem hst)

/-- A period that stands in a command is a duration. -/
theorem Command.longestPeriod_le_longest :
    ∀ c : Command, c.longestPeriod config ≤ Duration.longest.nanos
  | .act _ => Nat.zero_le _
  | .on (.every seconds) c => by
    refine Nat.max_le.mpr ⟨?_, c.longestPeriod_le_longest⟩
    cases Stage.period? config seconds with
    | none => exact Nat.zero_le _
    | some period => exact period.le_longest
  | .on .click c => c.longestPeriod_le_longest
  | .on (.key _) c => c.longestPeriod_le_longest

theorem Script.longestPeriod_le_longest (script : Script) :
    script.longestPeriod config ≤ Duration.longest.nanos := by
  unfold longestPeriod
  induction script.statements with
  | nil => exact Nat.zero_le _
  | cons st sts ih => exact Nat.max_le.mpr ⟨st.command.longestPeriod_le_longest, ih⟩

/-- The period of a timer that waits is one of the script. -/
theorem Scene.Traced.period_le {s : Scene} (h : s.Traced script) {t : Timer}
    (ht : t ∈ s.timers.timers) : t.period.nanos ≤ script.longestPeriod s.config := by
  obtain ⟨seconds, hholds, hperiod⟩ := h.timers t ht
  have hcommand : t.period.nanos
      ≤ (Command.on (.every seconds) t.statement.command).longestPeriod s.config := by
    simp only [Command.longestPeriod, hperiod, Option.elim_some]
    exact Nat.le_max_left _ _
  exact Nat.le_trans hcommand hholds.longestPeriod_le

/-! ## 2. Statements with room -/

namespace Stage

variable {s s' : Stage} {result : Except RunError (Option Float)}

/-- The clock of the stage, in nanoseconds. -/
def clock (s : Stage) : Nat := s.scene.timers.clock.nanos

/-- Commands do not move the clock, and they keep the settings. -/
theorem Executed.clock (h : Executed line c s s' result) :
    s'.clock = s.clock ∧ s'.scene.config = s.scene.config := by
  induction h with
  | act a s =>
    have hframe := s.scene.perform_frame line a
    exact ⟨congrArg (fun ts : Timers => ts.clock.nanos) hframe.timers, hframe.config⟩
  | listen c s => exact ⟨rfl, rfl⟩
  | refused c s _ => exact ⟨rfl, rfl⟩
  | register _ hregister =>
    obtain ⟨-, due, -, rfl⟩ := Timers.eq_of_register hregister
    exact ⟨rfl, rfl⟩
  | up c s _ => exact ⟨rfl, rfl⟩
  | down _ _ ih => exact ih

/-- A command that has room behind the clock for its longest period has a result. -/
theorem exists_exec_of_room : ∀ (c : Command) (s : Stage),
    s.clock + c.longestPeriod s.scene.config ≤ Duration.longest.nanos →
    ∃ s' result, exec line c s = .ok (s', result)
  | .act a, s, _ => ⟨_, _, rfl⟩
  | .on .click c, s, _ => ⟨_, _, rfl⟩
  | .on (.every seconds) c, s, h => by
    simp only [exec, log_scene]
    cases hperiod : period? s.scene.config seconds with
    | none => exact ⟨_, _, rfl⟩
    | some period =>
      have hle : period.nanos ≤ (Command.on (.every seconds) c).longestPeriod s.scene.config := by
        simp only [Command.longestPeriod, hperiod, Option.elim_some]
        exact Nat.le_max_left _ _
      have hadd := Duration.add?_of_le (Nat.le_trans (Nat.add_le_add_left hle _) h)
      simp only [Timers.register, hadd]
      exact ⟨_, _, rfl⟩
  | .on (.key key) c, s, h => by
    rw [exec_key]
    split
    · exact exists_exec_of_room c (s.log (.command line (Command.on (.key key) c).tag)) h
    · exact ⟨_, _, rfl⟩

/-- **Statements that have room behind the clock for their periods have a result, and do not move
the clock.** -/
theorem exists_runAll_of_room {bound : Nat} : ∀ (sts : List Statement) (s : Stage),
    (∀ st ∈ sts, st.command.longestPeriod s.scene.config ≤ bound) →
    s.clock + bound ≤ Duration.longest.nanos →
    ∃ s', runAll sts s = .ok s' ∧ s'.clock = s.clock
  | [], s, _, _ => ⟨s, rfl, rfl⟩
  | st :: sts, s, hsts, hroom => by
    rw [List.forall_mem_cons] at hsts
    obtain ⟨s₁, result, hexec⟩ : ∃ s₁ result, exec st.line st.command s = .ok (s₁, result) :=
      exists_exec_of_room st.command s (Nat.le_trans (Nat.add_le_add_left hsts.1 _) hroom)
    have hrun : s.run st = .ok (noted (s₁, result)) := by
      rw [run_eq, hexec]
      rfl
    obtain ⟨hclock₁, hconfig₁⟩ := (executed_of_exec hexec).clock
    have hclock : (noted (s₁, result)).clock = s.clock := by
      rw [clock, noted_scene]
      exact hclock₁
    have hconfig : (noted (s₁, result)).scene.config = s.scene.config := by
      rw [noted_scene]
      exact hconfig₁
    obtain ⟨s', hrest, hclock'⟩ := exists_runAll_of_room sts (noted (s₁, result))
      (by rw [hconfig]; exact hsts.2) (by rw [hclock]; exact hroom)
    refine ⟨s', ?_, hclock'.trans hclock⟩
    rw [runAll_cons, hrun]
    exact hrest

end Stage

/-! ## 3. Calls with room -/

namespace Run

variable {r r' : Run}

/-- The clock of the run, in nanoseconds. -/
def clock (r : Run) : Nat := r.stage.clock

/-- The longest period that stands in the script of the run. -/
def longestPeriod (r : Run) : Nat := r.script.longestPeriod r.stage.scene.config

/-- The clock behind a step. -/
def clockBehind (r : Run) (dt : Duration) : Nat :=
  if r.isRunning then r.clock + dt.nanos else r.clock

/-- The latest time of the clock during a call.  A setup and a preview put it back first. -/
def reach (r : Run) : Call → Nat
  | .setup => 0
  | .preview _ => 0
  | .advance dt => r.clockBehind dt
  | .frame dt _ => r.clockBehind dt
  | _ => r.clock

/-- The clock stays a duration. -/
def clockFits (r : Run) (c : Call) : Bool := r.reach c ≤ Duration.longest.nanos

/-- The clock stays a duration, and behind it there is room for the longest period of the
script. -/
def hasRoom (r : Run) (c : Call) : Bool :=
  r.reach c + r.longestPeriod ≤ Duration.longest.nanos

/-- The test holds of every call of a history in its turn. -/
def always (test : Run → Call → Bool) (r : Run) : List Call → Bool
  | [] => true
  | c :: cs => test r c && match r.call c with
    | .ok (_, r) => r.always test cs
    | .error _ => true

theorem exists_carryOut_of_room {sts : List Statement}
    (hsts : ∀ st ∈ sts, r.script.Holds st.line st.command)
    (hroom : r.clock + r.longestPeriod ≤ Duration.longest.nanos) :
    ∃ r', r.carryOut sts = .ok r' ∧ r'.clock = r.clock := by
  obtain ⟨stage, hrun, hclock⟩ := Stage.exists_runAll_of_room sts r.stage
    (fun st hst => (hsts st hst).longestPeriod_le) hroom
  refine ⟨{ r with stage := stage }, ?_, hclock⟩
  rw [carryOut, hrun]
  rfl

/-- At time zero there is room for every period. -/
theorem room_of_clock_eq_zero (h : r.clock = 0) :
    r.clock + r.longestPeriod ≤ Duration.longest.nanos := by
  rw [h, Nat.zero_add]
  exact r.script.longestPeriod_le_longest

/-- **A setup has a result**, whatever came before it.  The clock is put back, so there is room for
the period of every timer. -/
theorem exists_setup (r : Run) : ∃ r', r.setup = .ok r' ∧ r'.clock = 0 := by
  have hsts : ∀ st ∈ r.begun.script.setup, r.begun.script.Holds st.line st.command :=
    fun st hst => Script.holds_of_mem (List.mem_of_mem_filter hst)
  have hclock : r.begun.clock = 0 := rfl
  obtain ⟨r₁, hrun, hclock₁⟩ := exists_carryOut_of_room hsts (room_of_clock_eq_zero hclock)
  have hrun' : r.begun.carryOut r.script.setup = .ok r₁ := hrun
  refine ⟨r₁.settled, ?_, hclock₁⟩
  rw [setup, hrun']
  rfl

theorem exists_update_of_room (hroom : r.clock + r.longestPeriod ≤ Duration.longest.nanos) :
    ∃ r', r.update = .ok r' := by
  unfold update
  split
  · have hsts : ∀ st ∈ r.script.perFrame, r.script.Holds st.line st.command :=
      fun st hst => Script.holds_of_mem (List.mem_of_mem_filter hst)
    obtain ⟨r', hrun, -⟩ := exists_carryOut_of_room hsts hroom
    exact ⟨r', hrun⟩
  · exact ⟨r, rfl⟩

/-- Every tick up to the new time of the clock has room for one period more. -/
theorem fits_of_room {dt : Duration} (hr : r.Traced)
    (hroom : r.clock + dt.nanos + r.longestPeriod ≤ Duration.longest.nanos) :
    r.stage.scene.timers.Fits dt := by
  refine ⟨Nat.le_trans (Nat.le_add_right _ r.longestPeriod) hroom, fun t ht k hk => ?_⟩
  have hperiod : t.period.nanos ≤ r.longestPeriod := hr.period_le ht
  calc t.tickTime (k + 1) = t.tickTime k + t.period.nanos := t.tickTime_succ k
    _ ≤ r.clock + dt.nanos + r.longestPeriod := Nat.add_le_add hk hperiod
    _ ≤ Duration.longest.nanos := hroom

theorem exists_advance_of_room {dt : Duration} (hr : r.Traced)
    (hp : Timers.Proper r.stage.scene.timers.timers)
    (hroom : r.clockBehind dt + r.longestPeriod ≤ Duration.longest.nanos) :
    ∃ r', r.advance dt = .ok r' ∧ r'.clock = r.clockBehind dt := by
  unfold clockBehind at hroom ⊢
  split at hroom
  · rename_i hrun
    rw [if_pos hrun]
    obtain ⟨ticks, ts, htick⟩ := Timers.exists_tick hp (fits_of_room hr hroom)
    have hadvance := Timers.advance_of_tick htick
    have hclock : (r.aged.withTimers ts).clock = r.clock + dt.nanos :=
      (Timers.fired_of_tick hp htick).1
    have hmoved : (r.aged.withTimers ts).clock + (r.aged.withTimers ts).longestPeriod
        ≤ Duration.longest.nanos := by
      rw [hclock]
      exact hroom
    -- what ticks is what timers carry out, and these the script holds
    have hsts : ∀ st ∈ ticks.map Timer.statement,
        (r.aged.withTimers ts).script.Holds st.line st.command := by
      intro st hst
      obtain ⟨t, ht, rfl⟩ := (Timers.drawnFrom_of_advance hadvance).1 st hst
      obtain ⟨seconds, hholds, -⟩ := hr.timers t ht
      exact hholds.behind
    obtain ⟨r', hcarry, hclock'⟩ := exists_carryOut_of_room hsts hmoved
    refine ⟨r', ?_, hclock'.trans hclock⟩
    rw [advance, if_pos hrun, hadvance]
    exact hcarry
  · rename_i hrun
    rw [if_neg hrun]
    exact ⟨r, if_neg hrun, rfl⟩

theorem exists_dispatch_of_room (hr : r.Traced) (i : Input)
    (hroom : r.clock + r.longestPeriod ≤ Duration.longest.nanos) :
    ∃ r', r.dispatch i = .ok r' := by
  cases i with
  | keyDown key => exact ⟨_, rfl⟩
  | keyUp key => exact ⟨_, rfl⟩
  | click x y =>
    simp only [dispatch]
    split
    · have hsts : ∀ st ∈ r.stage.scene.clicks, (r.pointed x y).script.Holds st.line st.command :=
        fun st hst => (hr.clicks st hst).behind
      have hpointed : (r.pointed x y).clock + (r.pointed x y).longestPeriod
          ≤ Duration.longest.nanos := hroom
      obtain ⟨r', hrun, -⟩ := exists_carryOut_of_room hsts hpointed
      exact ⟨r', hrun⟩
    · exact ⟨r, rfl⟩

/-- **A call that has room behind the clock for the longest period has a result.** -/
theorem exists_call_of_room (hr : r.Traced) (hp : Timers.Proper r.stage.scene.timers.timers)
    {c : Call} (hroom : r.hasRoom c = true) : ∃ a r', r.call c = .ok (a, r') := by
  have hroom : r.reach c + r.longestPeriod ≤ Duration.longest.nanos := of_decide_eq_true hroom
  cases c with
  | setup =>
    obtain ⟨r', h, -⟩ := r.exists_setup
    exact ⟨_, _, congrArg (Except.map _) h⟩
  | update =>
    obtain ⟨r', h⟩ := exists_update_of_room hroom
    exact ⟨_, _, congrArg (Except.map _) h⟩
  | advance dt =>
    obtain ⟨r', h, -⟩ := exists_advance_of_room hr hp hroom
    exact ⟨_, _, congrArg (Except.map _) h⟩
  | draw ready => exact ⟨_, _, rfl⟩
  | frame dt ready =>
    obtain ⟨r₁, ha, hclock⟩ := exists_advance_of_room hr hp hroom
    have hscript : r₁.script = r.script := (follows_of_advance hr ha).script
    have hconfig : r₁.stage.scene.config = r.stage.scene.config :=
      (Scene.stable_config _).of_advance ha rfl
    have hupdate : r₁.clock + r₁.longestPeriod ≤ Duration.longest.nanos := by
      rw [hclock, longestPeriod, hscript, hconfig]
      exact hroom
    obtain ⟨r₂, hu⟩ := exists_update_of_room hupdate
    have hframe : r.frame dt ready = .ok (r₂.draw ready) := by
      rw [frame_eq, ha, Except.bind, hu, Except.map]
    exact ⟨_, _, congrArg (Except.map _) hframe⟩
  | preview ready =>
    obtain ⟨r₁, h, -⟩ := r.exists_setup
    have hpreview : r.preview ready = .ok ((r₁.draw ready).1, (r₁.draw ready).2.stop) := by
      rw [preview_eq, h, Except.map]
    exact ⟨_, _, congrArg (Except.map _) hpreview⟩
  | stop => exact ⟨_, _, rfl⟩
  | load script => exact ⟨_, _, rfl⟩
  | setAssets assets => exact ⟨_, _, rfl⟩
  | input i =>
    obtain ⟨r', h⟩ := exists_dispatch_of_room hr i hroom
    exact ⟨_, _, congrArg (Except.map _) h⟩
  | takeDiagnostics => exact ⟨_, _, rfl⟩
  | takeSounds => exact ⟨_, _, rfl⟩

/-! ## 4. Histories with room -/

/-- What comes behind a history has a result if every call has room in its turn. -/
theorem exists_calls_of_room : ∀ (cs : List Call) {before : List Call} {as : List Answer}
    {r : Run}, (Run.new script config).calls before = .ok (as, r) → r.always hasRoom cs = true →
    ∃ as' r', r.calls cs = .ok (as', r')
  | [], _, _, r, _, _ => ⟨[], r, rfl⟩
  | c :: cs, before, as, r, hbefore, hroom => by
    simp only [always, Bool.and_eq_true] at hroom
    obtain ⟨a, r₁, hc⟩ :=
      exists_call_of_room (traced_of_calls hbefore) (regular_of_calls hbefore).proper hroom.1
    simp only [hc] at hroom
    obtain ⟨as', r', hcs⟩ := exists_calls_of_room cs (calls_concat hbefore hc) hroom.2
    refine ⟨a :: as', r', ?_⟩
    simp only [calls, hc, hcs, Except.map]

/-- **Calls have results as long as there is room for the longest period.**  Take any script, any
settings and any history of calls.  If at every call the clock, as far as the call moves it, and
the longest period that stands in the script in place make up no more than the longest duration,
then every call has a result: no tick and no registration, whether at the setup, on a tick or on a
click, goes beyond it. -/
theorem calls_have_results {script : Script} {config : RunConfig} {cs : List Call}
    (h : (Run.new script config).always hasRoom cs = true) :
    ∃ as r, (Run.new script config).calls cs = .ok (as, r) := by
  have hnew : (Run.new script config).calls [] = .ok ([], Run.new script config) := rfl
  exact exists_calls_of_room cs hnew h

/-- A script with a timer of about 300 billion years, and a longer one behind a click. -/
def farScript : Script :=
  ⟨[⟨1, .on (.every 1e19) (.act (.say "tick"))⟩,
    ⟨2, .on .click (.on (.every 18446744073709549568) (.act (.say "late")))⟩], []⟩

/-- A click behind 2047 seconds still sets its timer. -/
theorem calls_have_results_farScript :
    (Run.new farScript (.seeded 0)).always hasRoom
        [.setup, .advance (.ofMillis 2047000), .input (.click 1.0 2.0)] = true ∧
      ∃ as r, (Run.new farScript (.seeded 0)).calls
        [.setup, .advance (.ofMillis 2047000), .input (.click 1.0 2.0)] = .ok (as, r) := by
  have hroom : (Run.new farScript (.seeded 0)).always hasRoom
      [.setup, .advance (.ofMillis 2047000), .input (.click 1.0 2.0)] = true := by decide +kernel
  exact ⟨hroom, calls_have_results hroom⟩

theorem calls_ne_ok_of_endsIn {cs : List Call} (h : r.endsIn cs (fun _ => true) = false) :
    ∀ as r', r.calls cs ≠ .ok (as, r') := by
  intro as r' hcalls
  rw [endsIn, hcalls] at h
  simp at h

/-- **A clock that stays a duration is not enough.**  A tick may come so late that there is no time
for the next one, although the clock has only come to the first; and behind 2048 seconds a click
may set a timer whose first tick is beyond the longest duration. -/
theorem clock_fits_and_calls_overflow :
    ((Run.new farScript (.seeded 0)).always clockFits
        [.setup, .advance (.ofNanos 10000000000000000000000000000)] = true ∧
      ∀ as r, (Run.new farScript (.seeded 0)).calls
        [.setup, .advance (.ofNanos 10000000000000000000000000000)] ≠ .ok (as, r)) ∧
    (Run.new farScript (.seeded 0)).always clockFits
        [.setup, .advance (.ofMillis 2048000), .input (.click 1.0 2.0)] = true ∧
      ∀ as r, (Run.new farScript (.seeded 0)).calls
        [.setup, .advance (.ofMillis 2048000), .input (.click 1.0 2.0)] ≠ .ok (as, r) := by
  refine ⟨⟨by decide +kernel, ?_⟩, by decide +kernel, ?_⟩
  · exact calls_ne_ok_of_endsIn (by decide +kernel)
  · exact calls_ne_ok_of_endsIn (by decide +kernel)

end Run
end StageScript

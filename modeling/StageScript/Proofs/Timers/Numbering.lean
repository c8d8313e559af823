/-
# The numbers of timers carry no meaning

A timer has a number so that two ticks at one time have an order.  All that is ever asked of two
numbers is which of them is smaller, or whether they are the same; so timers whose numbers are all
raised by the same amount tick at the same times, in the same order, and carry out the same
statements.

The numbers go on when the timers are cleared.  So this is what the timers of a run that was begun
anew and those of a new run have to do with each other.
-/
import StageScript.Timers

namespace StageScript

/-- The timer with its number raised by `n`. -/
def Timer.shift (n : Nat) (t : Timer) : Timer := { t with id := t.id + n }

theorem Timer.isBefore_shift (n : Nat) (t u : Timer) :
    (t.shift n).isBefore (u.shift n) = t.isBefore u := by
  have hid : decide (t.id + n < u.id + n) = decide (t.id < u.id) :=
    decide_eq_decide.mpr Nat.add_lt_add_iff_right
  exact congrArg (fun b => _ || (_ && b)) hid

namespace Timers

/-- The timers with every number raised by `n`, also the ones that are still to be given. -/
def shift (n : Nat) (ts : Timers) : Timers :=
  { ts with timers := ts.timers.map (.shift n), nextId := ts.nextId + n }

@[simp] theorem shift_clock (n : Nat) (ts : Timers) : (ts.shift n).clock = ts.clock := rfl

@[simp] theorem length_shift (n : Nat) (ts : Timers) :
    (ts.shift n).timers.length = ts.timers.length := List.length_map _

/-- Cleared timers are those of a new run, but for the number of the next one. -/
theorem clear_eq_shift (ts : Timers) : ts.clear = start.shift ts.nextId := by
  simp [clear, shift, start]

/-- The same of a result and of what is left where there is none. -/
def shiftResult {α : Type} (f : α → α) (n : Nat) :
    Except Timers (α × Timers) → Except Timers (α × Timers)
  | .error ts => .error (ts.shift n)
  | .ok (x, ts) => .ok (f x, ts.shift n)

/-- A new timer gets the raised number. -/
theorem register_shift (n : Nat) (ts : Timers) (period : Duration) (st : Statement) :
    (ts.shift n).register period st = shiftResult (· + n) n (ts.register period st) := by
  unfold register
  rw [shift_clock]
  cases ts.clock.add? period with
  | none => simp [shiftResult, shift, counted, Nat.add_right_comm]
  | some due => simp [shiftResult, shift, counted, Timer.shift, Nat.add_right_comm]

/-! ## The ticks of raised timers -/

theorem earliest?_shift (n : Nat) (target : Duration) (ts : List Timer) :
    earliest? target (ts.map (.shift n)) = (earliest? target ts).map (.shift n) := by
  induction ts with
  | nil => rfl
  | cons t ts ih =>
    have hdue : (t.shift n).due = t.due := rfl
    simp only [List.map_cons, earliest?, hdue, ih]
    split
    · cases earliest? target ts with
      | none => rfl
      | some u =>
        simp only [Option.map_some, Timer.isBefore_shift]
        split <;> rfl
    · rfl

theorem reschedule_shift (n id : Nat) (due : Duration) (ts : List Timer) :
    reschedule (id + n) due (ts.map (.shift n)) = (reschedule id due ts).map (.shift n) := by
  simp only [reschedule, List.map_map]
  refine List.map_congr_left fun t _ => ?_
  have hid : (t.shift n).id = t.id + n := rfl
  simp only [Function.comp, hid, Nat.add_right_cancel_iff]
  split <;> rfl

theorem ticksDue_shift (n : Nat) (target : Duration) (ts : List Timer) :
    ticksDue target (ts.map (.shift n)) = ticksDue target ts := by
  unfold ticksDue
  rw [List.foldr_map]
  rfl

/-- **Raised timers tick alike**, tick by tick. -/
theorem fire_shift (n : Nat) (target : Duration) (k : Nat) (ts : List Timer) :
    fire target k (ts.map (.shift n)) = match fire target k ts with
      | .error ts => .error (ts.map (.shift n))
      | .ok (ticks, ts) => .ok (ticks.map (.shift n), ts.map (.shift n)) := by
  induction k generalizing ts with
  | zero => rfl
  | succ k ih =>
    simp only [fire, earliest?_shift]
    cases earliest? target ts with
    | none => rfl
    | some t =>
      have hdue : (t.shift n).due = t.due := rfl
      have hperiod : (t.shift n).period = t.period := rfl
      have hid : (t.shift n).id = t.id + n := rfl
      simp only [Option.map_some, hdue, hperiod, hid]
      cases t.due.add? t.period with
      | none => rfl
      | some due =>
        simp only [reschedule_shift, ih]
        cases fire target k (reschedule t.id due ts) <;> rfl

theorem tick_shift (n : Nat) (ts : Timers) (dt : Duration) :
    (ts.shift n).tick dt = shiftResult (List.map (.shift n)) n (ts.tick dt) := by
  unfold tick
  rw [shift_clock]
  cases ts.clock.add? dt with
  | none => rfl
  | some target =>
    have htimers : (ts.shift n).timers = ts.timers.map (.shift n) := rfl
    simp only [htimers, ticksDue_shift, fire_shift]
    cases fire target (ticksDue target ts.timers) ts.timers <;> rfl

/-- **Raised timers release the same statements.** -/
theorem advance_shift (n : Nat) (ts : Timers) (dt : Duration) :
    (ts.shift n).advance dt = shiftResult id n (ts.advance dt) := by
  unfold advance
  rw [tick_shift]
  cases ts.tick dt with
  | error ts' => rfl
  | ok x =>
    have hstatement : Timer.statement ∘ Timer.shift n = Timer.statement := rfl
    simp only [shiftResult, List.map_map, hstatement, id_eq]

end Timers
end StageScript

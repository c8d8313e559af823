/-
# Timers

A timer repeats: it ticks once per elapsed period, counted from the moment it was registered.
Nothing ticks on its own.  The owner moves the clock, and gets the statements of all ticks that
fell due, in the order of their times; of two ticks at one time the timer that was registered
first comes first.

Moving the clock to `target` fires exactly `ticksDue` ticks, so that number bounds the loop
that fires them.  Every sum of durations may leave their range.  Then there is no result, and the
timers are left as they stood at that sum.
-/
import StageScript.Command
import StageScript.Duration

namespace StageScript

/-- A repeating timer. -/
structure Timer where
  id : Nat
  period : Duration
  /-- The time of the next tick. -/
  due : Duration
  /-- What a tick carries out, with the line that registered it. -/
  statement : Statement

/-- Timers in the order of registration, with the clock they run by. -/
structure Timers where
  timers : List Timer
  nextId : Nat
  clock : Duration

namespace Timer

/-- Ticks before another timer that is due as well. -/
def isBefore (t u : Timer) : Bool :=
  t.due.nanos < u.due.nanos || (t.due.nanos == u.due.nanos && t.id < u.id)

/-- The ticks of a timer up to a time. -/
def ticksUntil (target : Duration) (t : Timer) : Nat :=
  if t.due.nanos ≤ target.nanos then (target.nanos - t.due.nanos) / t.period.nanos + 1 else 0

end Timer

namespace Timers

/-- No timers, at time zero. -/
def start : Timers := ⟨[], 0, .zero⟩

/-- The timers with one more number given out. -/
def counted (ts : Timers) : Timers := { ts with nextId := ts.nextId + 1 }

/-- Adds a timer whose first tick is one period away, and returns its number.  The number is given
out before the time of the tick is known. -/
def register (ts : Timers) (period : Duration) (statement : Statement) :
    Except Timers (Nat × Timers) :=
  match ts.clock.add? period with
  | none => .error ts.counted
  | some due =>
    .ok (ts.nextId,
      { ts.counted with timers := ts.timers ++ [⟨ts.nextId, period, due, statement⟩] })

/-- A timer that cannot be registered has taken a number. -/
theorem eq_of_register_error {ts left : Timers} {period : Duration} {statement : Statement}
    (h : ts.register period statement = .error left) : left = ts.counted := by
  unfold register at h
  split at h
  · exact (Except.error.inj h).symm
  · simp at h

/-- The timer that ticks next, if one is due at `target`. -/
def earliest? (target : Duration) : List Timer → Option Timer
  | [] => none
  | t :: ts =>
    if t.due.nanos ≤ target.nanos then
      match earliest? target ts with
      | some u => if u.isBefore t then some u else some t
      | none => some t
    else earliest? target ts

/-- Moves the next tick of the timer `id`. -/
def reschedule (id : Nat) (due : Duration) (ts : List Timer) : List Timer :=
  ts.map fun t => if t.id = id then { t with due := due } else t

/-- Fires the next `n` ticks that are due at `target`.  A timer that ticks is listed as it stood
when it did. -/
def fire (target : Duration) : Nat → List Timer → Except (List Timer) (List Timer × List Timer)
  | 0, ts => .ok ([], ts)
  | n + 1, ts =>
    match earliest? target ts with
    | none => .ok ([], ts)
    | some t =>
      match t.due.add? t.period with
      | none => .error ts
      | some due =>
        match fire target n (reschedule t.id due ts) with
        | .error ts => .error ts
        | .ok (ticks, ts) => .ok (t :: ticks, ts)

/-- The number of ticks that are due at `target`. -/
def ticksDue (target : Duration) (ts : List Timer) : Nat :=
  ts.foldr (fun t n => t.ticksUntil target + n) 0

/-- Moves the clock, and returns the timers that ticked. -/
def tick (ts : Timers) (dt : Duration) : Except Timers (List Timer × Timers) :=
  match ts.clock.add? dt with
  | none => .error ts
  | some target =>
    match fire target (ticksDue target ts.timers) ts.timers with
    | .error timers => .error { ts with timers := timers }
    | .ok (ticks, timers) => .ok (ticks, { ts with timers := timers, clock := target })

/-- Moves the clock, and returns what the ticks that fell due carry out. -/
def advance (ts : Timers) (dt : Duration) : Except Timers (List Statement × Timers) :=
  match ts.tick dt with
  | .error ts => .error ts
  | .ok (ticks, ts) => .ok (ticks.map Timer.statement, ts)

/-- Cancels all timers and puts the clock back.  Numbers are not given twice. -/
def clear (ts : Timers) : Timers := { ts with timers := [], clock := .zero }

end Timers
end StageScript

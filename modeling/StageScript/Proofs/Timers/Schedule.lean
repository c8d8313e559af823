/-
# Timers keep their schedule

Whatever happens to the timers of a run is one of three things (`Op`): a timer is registered, the
clock moves on, or all timers are cleared.  This module follows the timers through any sequence
of them, and says nothing about who asks for it.

* `Regular`: every timer has a positive period, not shorter than the shortest one, and its next
  tick lies within one period behind the clock; the numbers of the timers ascend.
* `Watched` puts a tally beside each timer: the clock at its registration, and how often it has
  ticked since.  A tally fits its timer (`Tally.Fits`) if the next tick is one period more behind
  the registration than there were ticks.

Neither invariant needs to know how the time was divided.  Together they leave one value for the
count (`Tally.Fits.counts`): the number of whole periods since the registration.
-/
import Mathlib.Data.List.Forall2
import StageScript.Proofs.Timers.Firing

namespace StageScript

theorem eq_ok_of_toOption {ε α : Type} {x : Except ε α} {a : α} (h : x.toOption = some a) :
    x = .ok a := by
  cases x with
  | error e => simp [Except.toOption] at h
  | ok b => exact congrArg Except.ok (Option.some.inj h)

/-! ## 1. Operations, and a tally for each timer -/

namespace Timers

/-- What the owner of the timers does to them. -/
inductive Op where
  | register (period : Duration) (statement : Statement)
  | advance (dt : Duration)
  | clear

/-- A registration with a positive period that is not shorter than the shortest one. -/
def Op.Admitted (minPeriod : Duration) : Op → Prop
  | register period _ => 0 < period.nanos ∧ minPeriod.nanos ≤ period.nanos
  | advance _ => True
  | clear => True

end Timers

/-- What is remembered of a timer: its number, the clock at its registration, and how often it
has ticked since. -/
structure Tally where
  id : Nat
  since : Duration
  ticks : Nat

/-- Timers with their tallies, in the same order. -/
structure Watched where
  timers : Timers
  tallies : List Tally

namespace Watched

/-- No timers, at time zero. -/
def start : Watched := ⟨.start, []⟩

/-- Does one operation, and counts the ticks of every timer. -/
def after? (w : Watched) : Timers.Op → Option Watched
  | .register period statement =>
    (w.timers.register period statement).toOption.map fun (id, ts) =>
      ⟨ts, w.tallies ++ [⟨id, w.timers.clock, 0⟩]⟩
  | .advance dt =>
    (w.timers.tick dt).toOption.map fun (ticks, ts) =>
      ⟨ts, w.tallies.map fun e => { e with ticks := e.ticks + ticks.countP (·.id == e.id) }⟩
  | .clear => some ⟨w.timers.clear, []⟩

/-- Does operations in order. -/
def replay? (w : Watched) : List Timers.Op → Option Watched
  | [] => some w
  | op :: ops => (w.after? op).bind fun w => w.replay? ops

theorem replay?_append (w : Watched) (ops ops' : List Timers.Op) :
    w.replay? (ops ++ ops') = (w.replay? ops).bind fun w => w.replay? ops' := by
  induction ops generalizing w with
  | nil => rfl
  | cons op ops ih =>
    simp only [List.cons_append, replay?]
    cases w.after? op with
    | none => rfl
    | some w' => exact ih w'

end Watched

/-! ## 2. The next tick lies within one period behind the clock -/

/-- The timer has an admitted period, and its next tick is the first one behind the clock. -/
structure Timer.OnTime (minPeriod clock : Duration) (t : Timer) : Prop where
  positive : 0 < t.period.nanos
  minPeriod_le : minPeriod.nanos ≤ t.period.nanos
  clock_lt_due : clock.nanos < t.due.nanos
  due_le : t.due.nanos ≤ clock.nanos + t.period.nanos

/-- A timer that was on time is on time again behind all ticks up to the new clock. -/
theorem Timer.OnTime.later {minPeriod clock target : Duration} {t : Timer}
    (h : t.OnTime minPeriod clock) (hle : clock.nanos ≤ target.nanos)
    (hfits : t.Fits target.nanos) :
    (t.later (t.ticksUntil target)).OnTime minPeriod target := by
  have hleast := Timer.isLeast_tickTime_ticksUntil target h.positive
  have hdue := Timer.later_due (hfits.tickTime_le h.positive)
  refine ⟨h.positive, h.minPeriod_le, hdue ▸ hleast.1.2, ?_⟩
  rw [hdue, Timer.later_period]
  cases hk : t.ticksUntil target with
  | zero =>
    rw [Timer.tickTime_zero]
    exact Nat.le_trans h.due_le (Nat.add_le_add_right hle _)
  | succ k =>
    have hlt := (Timer.lt_ticksUntil_iff h.positive target k).mp (by omega)
    rw [Timer.tickTime_succ]
    exact Nat.add_le_add_right hlt _

namespace Timers

/-- All timers are on time, and their numbers ascend. -/
structure Regular (minPeriod : Duration) (ts : Timers) : Prop where
  onTime : ∀ t ∈ ts.timers, t.OnTime minPeriod ts.clock
  ascending : (ts.timers.map Timer.id).Pairwise (· < ·)
  id_lt : ∀ t ∈ ts.timers, t.id < ts.nextId

variable {minPeriod : Duration} {ts ts' : Timers}

theorem Regular.proper (h : ts.Regular minPeriod) : Proper ts.timers :=
  ⟨fun t ht => (h.onTime t ht).positive, h.ascending.imp Nat.ne_of_lt⟩

theorem Regular.clear (ts : Timers) : ts.clear.Regular minPeriod :=
  ⟨by simp [Timers.clear], by simp [Timers.clear], by simp [Timers.clear]⟩

theorem Regular.start : Timers.start.Regular minPeriod :=
  ⟨by simp [Timers.start], by simp [Timers.start], by simp [Timers.start]⟩

/-- What a registration does. -/
theorem eq_of_register {period : Duration} {statement : Statement} {id : Nat}
    (h : ts.register period statement = .ok (id, ts')) :
    id = ts.nextId ∧ ∃ due : Duration, due.nanos = ts.clock.nanos + period.nanos ∧
      ts' = ⟨ts.timers ++ [⟨ts.nextId, period, due, statement⟩], ts.nextId + 1, ts.clock⟩ := by
  unfold register at h
  split at h
  · simp at h
  · rename_i due hadd
    obtain ⟨rfl, rfl⟩ := Prod.mk.inj (Except.ok.inj h)
    exact ⟨rfl, due, Duration.add?_eq_some_iff.mp hadd, rfl⟩

/-- **A registration keeps the timers regular.**  The new timer ticks one period behind the
clock, and its number is larger than all others. -/
theorem Regular.register (h : ts.Regular minPeriod) {period : Duration} {statement : Statement}
    {id : Nat} (hpos : 0 < period.nanos) (hmin : minPeriod.nanos ≤ period.nanos)
    (hr : ts.register period statement = .ok (id, ts')) : ts'.Regular minPeriod := by
  obtain ⟨-, due, hdue, rfl⟩ := eq_of_register hr
  constructor
  · intro t ht
    rcases List.mem_append.mp ht with ht | ht
    · exact h.onTime t ht
    · obtain rfl := List.mem_singleton.mp ht
      exact ⟨hpos, hmin, by simp only; omega, by simp only; omega⟩
  · simp only [List.map_append, List.map_cons, List.map_nil]
    refine List.pairwise_append.mpr ⟨h.ascending, List.pairwise_singleton _ _, ?_⟩
    intro i hi j hj
    obtain ⟨t, ht, rfl⟩ := List.mem_map.mp hi
    obtain rfl := List.mem_singleton.mp hj
    exact h.id_lt t ht
  · intro t ht
    rcases List.mem_append.mp ht with ht | ht
    · exact Nat.lt_succ_of_lt (h.id_lt t ht)
    · obtain rfl := List.mem_singleton.mp ht
      exact Nat.lt_succ_self _

/-- **A step of the clock keeps the timers regular.** -/
theorem Regular.tick (h : ts.Regular minPeriod) {dt : Duration} {ticks : List Timer}
    (ht : ts.tick dt = .ok (ticks, ts')) : ts'.Regular minPeriod := by
  obtain ⟨hclock, hnext, hfired⟩ := fired_of_tick h.proper ht
  have hle : ts.clock.nanos ≤ ts'.clock.nanos := by omega
  constructor
  · intro t' ht'
    rw [hfired.rest] at ht'
    obtain ⟨t, ht, rfl⟩ := List.mem_map.mp ht'
    exact (h.onTime t ht).later hle (hfired.fits t ht)
  · have hids : ts'.timers.map Timer.id = ts.timers.map Timer.id := by
      rw [hfired.rest, List.map_map]
      rfl
    rw [hids]
    exact h.ascending
  · intro t' ht'
    rw [hfired.rest] at ht'
    obtain ⟨t, ht, rfl⟩ := List.mem_map.mp ht'
    rw [hnext]
    exact h.id_lt t ht

end Timers

/-! ## 3. The tally is the number of whole periods -/

/-- The next tick is one period more behind the registration than the timer has ticked. -/
structure Tally.Fits (t : Timer) (e : Tally) : Prop where
  id_eq : e.id = t.id
  due_eq : t.due.nanos = e.since.nanos + (e.ticks + 1) * t.period.nanos

/-- The timer has ticked once for every whole period between its registration and `clock`. -/
structure Tally.Counts (clock : Duration) (t : Timer) (e : Tally) : Prop where
  id_eq : e.id = t.id
  since_le : e.since.nanos ≤ clock.nanos
  ticks_eq : e.ticks = (clock.nanos - e.since.nanos) / t.period.nanos

/-- **No drift.**  Where the next tick is fixes how many there were. -/
theorem Tally.Fits.counts {minPeriod clock : Duration} {t : Timer} {e : Tally}
    (h : e.Fits t) (ht : t.OnTime minPeriod clock) : e.Counts clock t := by
  have hdue := h.due_eq
  have hlt := ht.clock_lt_due
  have hle := ht.due_le
  rw [Nat.add_mul, Nat.one_mul] at hdue
  have hsince : e.since.nanos ≤ clock.nanos := by omega
  refine ⟨h.id_eq, hsince, (Nat.div_eq_of_lt_le ?_ ?_).symm⟩
  · omega
  · rw [Nat.succ_mul]
    omega

/-- A tally goes with its timer through a step of the clock. -/
theorem Tally.Fits.later {t : Timer} {e : Tally} (h : e.Fits t) {n : Nat}
    (hn : t.tickTime n ≤ Duration.longest.nanos) :
    Tally.Fits (t.later n) { e with ticks := e.ticks + n } := by
  refine ⟨h.id_eq, ?_⟩
  rw [Timer.later_due hn, Timer.later_period, Timer.tickTime, h.due_eq, Nat.add_assoc,
    ← Nat.add_mul, Nat.add_right_comm]

namespace Watched

/-- Regular timers, each with the tally that fits it. -/
structure Kept (minPeriod : Duration) (w : Watched) : Prop where
  regular : w.timers.Regular minPeriod
  fits : List.Forall₂ Tally.Fits w.timers.timers w.tallies

variable {minPeriod : Duration} {w w' : Watched}

/-- Each tally counts the whole periods since the registration of its timer. -/
theorem Kept.counts (h : w.Kept minPeriod) :
    List.Forall₂ (Tally.Counts w.timers.clock) w.timers.timers w.tallies := by
  have hmem : List.Forall₂ (fun t e => t ∈ w.timers.timers ∧ Tally.Fits t e)
      w.timers.timers w.tallies := (List.forall₂_and_left _ _).mpr ⟨fun _ ht => ht, h.fits⟩
  exact hmem.imp fun t _ hte => hte.2.counts (h.regular.onTime t hte.1)

theorem Kept.start : start.Kept minPeriod := ⟨Timers.Regular.start, .nil⟩

/-- **Every operation keeps timers and tallies together.** -/
theorem Kept.after (h : w.Kept minPeriod) {op : Timers.Op} (hop : op.Admitted minPeriod)
    (ha : w.after? op = some w') : w'.Kept minPeriod := by
  cases op with
  | register period statement =>
    obtain ⟨⟨id, ts⟩, hr, rfl⟩ := Option.map_eq_some_iff.mp ha
    have hr := eq_ok_of_toOption hr
    refine ⟨h.regular.register hop.1 hop.2 hr, ?_⟩
    obtain ⟨rfl, due, hdue, rfl⟩ := Timers.eq_of_register hr
    refine List.rel_append h.fits (.cons ⟨rfl, ?_⟩ .nil)
    rw [hdue, Nat.zero_add, Nat.one_mul]
  | advance dt =>
    obtain ⟨⟨ticks, ts⟩, ht, rfl⟩ := Option.map_eq_some_iff.mp ha
    have ht := eq_ok_of_toOption ht
    refine ⟨h.regular.tick ht, ?_⟩
    have hproper := h.regular.proper
    obtain ⟨-, -, hfired⟩ := Timers.fired_of_tick hproper ht
    rw [hfired.rest, List.forall₂_map_left_iff, List.forall₂_map_right_iff]
    -- the tallies count by number, the timers moved on by `ticksUntil`: the two agree
    have hmem : List.Forall₂ (fun t e => t ∈ w.timers.timers ∧ Tally.Fits t e)
        w.timers.timers w.tallies := (List.forall₂_and_left _ _).mpr ⟨fun _ ht => ht, h.fits⟩
    refine hmem.imp fun t e hte => ?_
    have hcount : ticks.countP (·.id == e.id) = t.ticksUntil ts.clock := by
      rw [hte.2.id_eq]
      exact hfired.countP_id t hte.1
    rw [hcount]
    exact hte.2.later ((hfired.fits t hte.1).tickTime_le (hproper.positive t hte.1))
  | clear =>
    obtain rfl := Option.some.inj ha
    exact ⟨.clear _, .nil⟩

/-- **Every sequence of operations does.** -/
theorem Kept.replay {ops : List Timers.Op} (h : w.Kept minPeriod)
    (hops : ∀ op ∈ ops, op.Admitted minPeriod) (hr : w.replay? ops = some w') :
    w'.Kept minPeriod := by
  induction ops generalizing w with
  | nil =>
    obtain rfl := Option.some.inj hr
    exact h
  | cons op ops ih =>
    obtain ⟨w₁, ha, hr⟩ := Option.bind_eq_some_iff.mp hr
    exact ih (h.after (hops op List.mem_cons_self) ha)
      (fun o ho => hops o (List.mem_cons_of_mem _ ho)) hr

end Watched

/-! ## 4. Operations that lead from one state to another -/

namespace Timers

/-- The operations lead from `ts` to `ts'`, whatever the tallies were. -/
def Leads (ops : List Op) (ts ts' : Timers) : Prop :=
  ∀ tallies, ∃ tallies', (Watched.mk ts tallies).replay? ops = some ⟨ts', tallies'⟩

theorem leads_nil (ts : Timers) : Leads [] ts ts := fun tallies => ⟨tallies, rfl⟩

theorem Leads.append {ops ops' : List Op} {ts ts' ts'' : Timers} (h : Leads ops ts ts')
    (h' : Leads ops' ts' ts'') : Leads (ops ++ ops') ts ts'' := by
  intro tallies
  obtain ⟨tallies', hr⟩ := h tallies
  obtain ⟨tallies'', hr'⟩ := h' tallies'
  refine ⟨tallies'', ?_⟩
  rw [Watched.replay?_append, hr]
  exact hr'

theorem leads_of_after? {op : Op} {ts ts' : Timers}
    (h : ∀ tallies, ∃ tallies', (Watched.mk ts tallies).after? op = some ⟨ts', tallies'⟩) :
    Leads [op] ts ts' := by
  intro tallies
  obtain ⟨tallies', ha⟩ := h tallies
  refine ⟨tallies', ?_⟩
  simp only [Watched.replay?, ha, Option.bind_some]

theorem leads_register {ts ts' : Timers} {period : Duration} {statement : Statement} {id : Nat}
    (h : ts.register period statement = .ok (id, ts')) :
    Leads [.register period statement] ts ts' :=
  leads_of_after? fun tallies =>
    ⟨tallies ++ [⟨id, ts.clock, 0⟩], by simp [Watched.after?, h, Except.toOption]⟩

theorem leads_advance {ts ts' : Timers} {dt : Duration} {fired : List Statement}
    (h : ts.advance dt = .ok (fired, ts')) : Leads [.advance dt] ts ts' := by
  obtain ⟨ticks, ht, -⟩ := exists_tick_of_advance h
  refine leads_of_after? fun tallies =>
    ⟨tallies.map fun e => { e with ticks := e.ticks + ticks.countP (·.id == e.id) }, ?_⟩
  simp only [Watched.after?, ht, Except.toOption, Option.map_some]

theorem leads_clear (ts : Timers) : Leads [.clear] ts ts.clear :=
  leads_of_after? fun _ => ⟨[], rfl⟩

end Timers
end StageScript

/-
# A step of the clock may be divided

One step of the clock does what two steps do whose lengths add up to its own: the ticks of the
first step and behind them those of the second are the ticks of the whole, and the timers end up
the same.

Nothing of this is argued along the loop.  `Fired` says of a list of ticks that it is in order and
which ticks it holds, and there is only one such list (`Fired.unique`).  So it is enough that the
ticks of the two steps, put behind one another, are in order and are the right ones
(`Fired.append`): the first step fires what is not beyond its end, the second one what is.

Overflow makes no exception.  A tick moves its timer on by one period whether it belongs to the
first step, the second or the whole, so the same additions are made (`tick_divided`).
-/
import Mathlib.Data.List.Sort
import StageScript.Proofs.Timers.Firing

namespace StageScript

/-! ## 1. The ticks of one timer -/

/-- The ticks up to a time are those up to an earlier one and those that follow. -/
theorem Timer.ticksUntil_divided {t : Timer} {mid target : Duration}
    (hpos : 0 < t.period.nanos) (hle : mid.nanos ≤ target.nanos)
    (hroom : t.tickTime (t.ticksUntil mid) ≤ Duration.longest.nanos) :
    t.ticksUntil mid + (t.later (t.ticksUntil mid)).ticksUntil target = t.ticksUntil target := by
  have hpos' : 0 < (t.later (t.ticksUntil mid)).period.nanos := hpos
  refine eq_of_forall_lt_iff fun k => ?_
  rw [Timer.lt_ticksUntil_iff hpos]
  rcases Nat.lt_or_ge k (t.ticksUntil mid) with hk | hk
  · -- a tick of the first part is not beyond the end of the whole either
    have htime : t.tickTime k ≤ mid.nanos := (Timer.lt_ticksUntil_iff hpos mid k).mp hk
    exact ⟨fun _ => Nat.le_trans htime hle, fun _ => Nat.lt_add_right _ hk⟩
  · obtain ⟨j, rfl⟩ := Nat.exists_eq_add_of_le hk
    rw [Nat.add_lt_add_iff_left, Timer.lt_ticksUntil_iff hpos', Timer.tickTime_later hroom]

/-- A timer that comes through the two parts comes through the whole. -/
theorem Timer.Fits.divided {t : Timer} {mid target : Duration} (hpos : 0 < t.period.nanos)
    (h : t.Fits mid.nanos) (h' : (t.later (t.ticksUntil mid)).Fits target.nanos) :
    t.Fits target.nanos := by
  have hroom := h.tickTime_le hpos
  intro k hk
  rcases Nat.lt_or_ge k (t.ticksUntil mid) with hlt | hge
  · exact h k ((Timer.lt_ticksUntil_iff hpos mid k).mp hlt)
  · obtain ⟨j, rfl⟩ := Nat.exists_eq_add_of_le hge
    rw [← Timer.tickTime_later hroom] at hk
    have hnext := h' j hk
    rwa [Timer.tickTime_later hroom] at hnext

theorem Timer.Fits.mono {t : Timer} {mid target : Nat} (h : t.Fits target)
    (hle : mid ≤ target) : t.Fits mid :=
  fun k hk => h k (Nat.le_trans hk hle)

/-- No timer ticks before itself, so a list in the order of ticks holds no tick twice. -/
instance : Std.Irrefl fun t u : Timer => t.isBefore u = true :=
  ⟨fun t h => absurd h (Bool.eq_false_iff.mp t.isBefore_self)⟩

instance : Std.Antisymm fun t u : Timer => t.isBefore u = true :=
  ⟨fun _ _ h h' => absurd h' (Bool.eq_false_iff.mp (Timer.isBefore_asymm h))⟩

namespace Timers

variable {mid target : Duration} {ts ts₁ ts₂ ticks ticks₁ ticks₂ : List Timer}

/-! ## 2. The ticks of all timers -/

/-- **The ticks of a step are determined**, and so are the timers behind it. -/
theorem Fired.unique (h : Fired target ts ticks₁ ts₁) (h' : Fired target ts ticks₂ ts₂) :
    ticks₁ = ticks₂ ∧ ts₁ = ts₂ := by
  constructor
  · exact List.Pairwise.eq_of_mem_iff h.sorted h'.sorted
      fun x => (h.mem_iff x).trans (h'.mem_iff x).symm
  · rw [h.rest, h'.rest]

/-- A tick of the second part is beyond the end of the first. -/
theorem Fired.lt_due (hp : Proper ts) (h : Fired mid ts ticks₁ ts₁)
    (h' : Fired target ts₁ ticks₂ ts₂) {x : Timer} (hx : x ∈ ticks₂) :
    mid.nanos < x.due.nanos := by
  obtain ⟨t', ht', k, hk, rfl⟩ := (h'.mem_iff x).mp hx
  rw [h.rest] at ht'
  obtain ⟨t, ht, rfl⟩ := List.mem_map.mp ht'
  have hfirst := (Timer.isLeast_tickTime_ticksUntil mid (hp.positive t ht)).1.2
  rw [Timer.later_due (Nat.le_trans hk target.le_longest),
    Timer.tickTime_later ((h.fits t ht).tickTime_le (hp.positive t ht))]
  exact Nat.lt_of_lt_of_le hfirst (t.tickTime_mono (Nat.le_add_right _ k))

/-- A tick of the first part is not. -/
theorem Fired.due_le (h : Fired mid ts ticks₁ ts₁) {x : Timer} (hx : x ∈ ticks₁) :
    x.due.nanos ≤ mid.nanos := by
  obtain ⟨t, -, k, hk, rfl⟩ := (h.mem_iff x).mp hx
  rwa [Timer.later_due (Nat.le_trans hk mid.le_longest)]

/-- The ticks of the whole are those of the two parts. -/
theorem Fired.mem_append_iff (hp : Proper ts) (hle : mid.nanos ≤ target.nanos)
    (h : Fired mid ts ticks₁ ts₁) (h' : Fired target ts₁ ticks₂ ts₂) (x : Timer) :
    x ∈ ticks₁ ++ ticks₂ ↔ ∃ t ∈ ts, ∃ k, t.tickTime k ≤ target.nanos ∧ x = t.later k := by
  have hroom (t : Timer) (ht : t ∈ ts) : t.tickTime (t.ticksUntil mid) ≤ Duration.longest.nanos :=
    (h.fits t ht).tickTime_le (hp.positive t ht)
  rw [List.mem_append, h.mem_iff, h'.mem_iff, h.rest]
  constructor
  · rintro (⟨t, ht, k, hk, rfl⟩ | ⟨t', ht', k, hk, rfl⟩)
    · exact ⟨t, ht, k, Nat.le_trans hk hle, rfl⟩
    · obtain ⟨t, ht, rfl⟩ := List.mem_map.mp ht'
      rw [Timer.tickTime_later (hroom t ht)] at hk
      exact ⟨t, ht, _, hk, Timer.later_later (hroom t ht) k⟩
  · rintro ⟨t, ht, k, hk, rfl⟩
    rcases Nat.lt_or_ge k (t.ticksUntil mid) with hlt | hge
    · exact Or.inl ⟨t, ht, k, (Timer.lt_ticksUntil_iff (hp.positive t ht) mid k).mp hlt, rfl⟩
    · obtain ⟨j, rfl⟩ := Nat.exists_eq_add_of_le hge
      refine Or.inr ⟨_, List.mem_map_of_mem ht, j, ?_, (Timer.later_later (hroom t ht) j).symm⟩
      rwa [Timer.tickTime_later (hroom t ht)]

/-- **The two parts together are the whole.** -/
theorem Fired.append (hp : Proper ts) (hle : mid.nanos ≤ target.nanos)
    (h : Fired mid ts ticks₁ ts₁) (h' : Fired target ts₁ ticks₂ ts₂) :
    Fired target ts (ticks₁ ++ ticks₂) ts₂ := by
  have hmem : ∀ t ∈ ts, t.later (t.ticksUntil mid) ∈ ts₁ := by
    intro t ht
    rw [h.rest]
    exact List.mem_map_of_mem ht
  have hroom (t : Timer) (ht : t ∈ ts) : t.tickTime (t.ticksUntil mid) ≤ Duration.longest.nanos :=
    (h.fits t ht).tickTime_le (hp.positive t ht)
  constructor
  · -- sorted
    refine List.pairwise_append.mpr ⟨h.sorted, h'.sorted, ?_⟩
    intro x hx y hy
    have hxy : x.due.nanos < y.due.nanos :=
      Nat.lt_of_le_of_lt (h.due_le hx) (h.lt_due hp h' hy)
    exact Timer.isBefore_iff.mpr (Or.inl hxy)
  · -- mem_iff
    exact Fired.mem_append_iff hp hle h h'
  · -- countP_id
    intro t ht
    have hsecond := h'.countP_id _ (hmem t ht)
    rw [Timer.later_id] at hsecond
    rw [List.countP_append, h.countP_id t ht, hsecond,
      Timer.ticksUntil_divided (hp.positive t ht) hle (hroom t ht)]
  · -- rest
    rw [h'.rest, h.rest, List.map_map]
    refine List.map_congr_left fun t ht => ?_
    rw [Function.comp_apply, Timer.later_later (hroom t ht),
      Timer.ticksUntil_divided (hp.positive t ht) hle (hroom t ht)]
  · -- fits
    intro t ht
    exact (h.fits t ht).divided (hp.positive t ht) (h'.fits _ (hmem t ht))

end Timers

/-! ## 3. Steps of the clock -/

namespace Timers

variable {ts ts₁ ts₂ : Timers} {d d₁ d₂ : Duration} {ticks₁ ticks₂ : List Timer}

theorem Fits.first (hd : d.nanos = d₁.nanos + d₂.nanos) (h : ts.Fits d) : ts.Fits d₁ := by
  obtain ⟨hlong, hfits⟩ := h
  exact ⟨by omega, fun t ht => (hfits t ht).mono (by omega)⟩

/-- The second part fits where the whole does. -/
theorem Fits.second (hd : d.nanos = d₁.nanos + d₂.nanos) (hp : Proper ts.timers)
    (h : ts.Fits d) (h₁ : ts.tick d₁ = .ok (ticks₁, ts₁)) : ts₁.Fits d₂ := by
  obtain ⟨hclock, -, hfired⟩ := fired_of_tick hp h₁
  obtain ⟨hlong, hfits⟩ := h
  have hsum : ts₁.clock.nanos + d₂.nanos = ts.clock.nanos + d.nanos := by omega
  refine ⟨by omega, ?_⟩
  intro t' ht'
  rw [hfired.rest] at ht'
  obtain ⟨t, ht, rfl⟩ := List.mem_map.mp ht'
  rw [hsum]
  exact (hfits t ht).later ((hfired.fits t ht).tickTime_le (hp.positive t ht))

/-- Two steps that have a result: the whole has the ticks of both. -/
theorem tick_of_tick (hd : d.nanos = d₁.nanos + d₂.nanos) (hp : Proper ts.timers)
    (h₁ : ts.tick d₁ = .ok (ticks₁, ts₁)) (h₂ : ts₁.tick d₂ = .ok (ticks₂, ts₂)) :
    ts.tick d = .ok (ticks₁ ++ ticks₂, ts₂) := by
  obtain ⟨hclock₁, hnext₁, hfired₁⟩ := fired_of_tick hp h₁
  obtain ⟨hclock₂, hnext₂, hfired₂⟩ := fired_of_tick (hfired₁.proper hp) h₂
  have hboth : Fired ts₂.clock ts.timers (ticks₁ ++ ticks₂) ts₂.timers :=
    Fired.append hp (by omega) hfired₁ hfired₂
  have hsum : ts₂.clock.nanos = ts.clock.nanos + d.nanos := by omega
  have hfits : ts.Fits d := by
    rw [Fits, ← hsum]
    exact ⟨ts₂.clock.le_longest, hboth.fits⟩
  obtain ⟨ticks, ts', h⟩ := exists_tick hp hfits
  obtain ⟨hclock, hnext, hfired⟩ := fired_of_tick hp h
  have hend : ts'.clock = ts₂.clock := Duration.ext (by rw [hclock, hsum])
  rw [hend] at hfired
  obtain ⟨rfl, htimers⟩ := hfired.unique hboth
  have hsame : ts' = ts₂ := by
    obtain ⟨timers, nextId, clock⟩ := ts'
    obtain ⟨timers₂, nextId₂, clock₂⟩ := ts₂
    simp only [Timers.mk.injEq] at htimers hnext hnext₂ hend ⊢
    exact ⟨htimers, by omega, hend⟩
  rw [h, hsame]

/-- **A step of the clock is the two steps into which it is divided.**  It has a result exactly
if both of them have one; then it fires the ticks of the first and those of the second, and
leaves the timers that the second leaves. -/
theorem tick_divided (hd : d.nanos = d₁.nanos + d₂.nanos) (hp : Proper ts.timers) :
    (ts.tick d).toOption = (ts.tick d₁).toOption.bind fun (ticks₁, ts₁) =>
      (ts₁.tick d₂).toOption.map fun (ticks₂, ts₂) => (ticks₁ ++ ticks₂, ts₂) := by
  cases h₁ : ts.tick d₁ with
  | error left =>
    cases h : ts.tick d with
    | error left' => rfl
    | ok x =>
      obtain ⟨ticks₁, ts₁, hok⟩ := exists_tick hp ((fits_of_tick hp h).first hd)
      simp [h₁] at hok
  | ok x =>
    obtain ⟨ticks₁, ts₁⟩ := x
    have hp₁ : Proper ts₁.timers := (fired_of_tick hp h₁).2.2.proper hp
    cases h₂ : ts₁.tick d₂ with
    | error left =>
      cases h : ts.tick d with
      | error left' => simp [Except.toOption, h₂]
      | ok y =>
        obtain ⟨ticks₂, ts₂, hok⟩ := exists_tick hp₁ ((fits_of_tick hp h).second hd hp h₁)
        simp [h₂] at hok
    | ok y =>
      obtain ⟨ticks₂, ts₂⟩ := y
      simp [tick_of_tick hd hp h₁ h₂, Except.toOption, h₂]

theorem toOption_advance (ts : Timers) (dt : Duration) : (ts.advance dt).toOption
    = (ts.tick dt).toOption.map fun (ticks, ts) => (ticks.map Timer.statement, ts) := by
  unfold advance
  cases ts.tick dt <;> rfl

/-- The same of what the ticks carry out. -/
theorem advance_parts (hd : d.nanos = d₁.nanos + d₂.nanos) (hp : Proper ts.timers) :
    (ts.advance d).toOption = (ts.advance d₁).toOption.bind fun (fired₁, ts₁) =>
      (ts₁.advance d₂).toOption.map fun (fired₂, ts₂) => (fired₁ ++ fired₂, ts₂) := by
  simp only [toOption_advance, tick_divided hd hp]
  cases (ts.tick d₁).toOption with
  | none => rfl
  | some x =>
    simp only [Option.bind_some, Option.map_some]
    cases (x.2.tick d₂).toOption with
    | none => rfl
    | some y => simp only [Option.map_some, List.map_append]

end Timers
end StageScript

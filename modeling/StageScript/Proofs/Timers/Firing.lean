/-
# The ticks that a step of the clock fires

The loop of `Timers.fire` looks at one timer at a time: the earliest that is due ticks, moves on
by its period, and the loop looks again.  Seen as a whole, the ticks of a timer `t` are
`t.later 0, t.later 1, ..`, and a step of the clock to `target` fires those of all timers whose
times are not beyond `target`, merged into one list by time and number.

Two facts about the timers carry this: their periods are positive and their numbers differ
(`Proper`).  Then a round takes exactly one tick away (`ticksDue_bump`), so the number of rounds
that `ticksDue` computes is the number the loop needs, and the tick of a round comes before all
that are left.  `Fired` says what the loop leaves behind, and the last section says the same of a
step of the clock, in terms of the timers it began with.
-/
import Mathlib.Data.List.Nodup
import Mathlib.Order.Bounds.Basic
import Mathlib.Tactic.Choose
import StageScript.Timers

namespace StageScript

/-! ## 1. The ticks of one timer -/

namespace Timer

/-- The time of the tick with number `k`, where the next tick has number zero. -/
def tickTime (t : Timer) (k : Nat) : Nat := t.due.nanos + k * t.period.nanos

/-- The timer as it stands `k` ticks later. -/
def later (t : Timer) (k : Nat) : Timer := { t with due := .ofNanos (t.tickTime k) }

@[simp] theorem later_id (t : Timer) (k : Nat) : (t.later k).id = t.id := rfl

@[simp] theorem later_period (t : Timer) (k : Nat) : (t.later k).period = t.period := rfl

theorem later_due {t : Timer} {k : Nat} (h : t.tickTime k ≤ Duration.longest.nanos) :
    (t.later k).due.nanos = t.tickTime k := Duration.nanos_ofNanos h

@[simp] theorem tickTime_zero (t : Timer) : t.tickTime 0 = t.due.nanos := by
  simp [tickTime]

theorem tickTime_succ (t : Timer) (k : Nat) :
    t.tickTime (k + 1) = t.tickTime k + t.period.nanos := by
  rw [tickTime, tickTime, Nat.add_mul, Nat.one_mul, Nat.add_assoc]

theorem tickTime_mono (t : Timer) {j k : Nat} (h : j ≤ k) : t.tickTime j ≤ t.tickTime k :=
  Nat.add_le_add_left (Nat.mul_le_mul_right _ h) _

theorem tickTime_lt (t : Timer) (hpos : 0 < t.period.nanos) {j k : Nat} (h : j < k) :
    t.tickTime j < t.tickTime k :=
  Nat.add_lt_add_left (Nat.mul_lt_mul_of_pos_right h hpos) _

/-- The ticks of a timer that has moved on are those that were left, as long as its next tick is
a duration. -/
theorem tickTime_later {t : Timer} {j : Nat} (h : t.tickTime j ≤ Duration.longest.nanos) (k : Nat) :
    (t.later j).tickTime k = t.tickTime (j + k) := by
  rw [tickTime, later_due h, later_period, tickTime, tickTime, Nat.add_mul, Nat.add_assoc]

@[simp] theorem later_zero (t : Timer) : t.later 0 = t := by
  simp [later]

theorem later_later {t : Timer} {j : Nat} (h : t.tickTime j ≤ Duration.longest.nanos) (k : Nat) :
    (t.later j).later k = t.later (j + k) :=
  congrArg (fun n => { t with due := .ofNanos n }) (tickTime_later h k)

/-- **`ticksUntil` counts the ticks up to a time.** -/
theorem lt_ticksUntil_iff {t : Timer} (hpos : 0 < t.period.nanos) (target : Duration) (k : Nat) :
    k < t.ticksUntil target ↔ t.tickTime k ≤ target.nanos := by
  unfold ticksUntil tickTime
  split
  · rw [Nat.lt_succ_iff, Nat.le_div_iff_mul_le hpos]
    omega
  · omega

/-- A timer that is due has one tick more to go than after its next tick. -/
theorem ticksUntil_of_due {t : Timer} {target : Duration} (hpos : 0 < t.period.nanos)
    (hdue : t.due.nanos ≤ target.nanos) (hroom : t.tickTime 1 ≤ Duration.longest.nanos) :
    t.ticksUntil target = (t.later 1).ticksUntil target + 1 := by
  refine eq_of_forall_lt_iff fun k => ?_
  rw [lt_ticksUntil_iff hpos]
  cases k with
  | zero => simpa using hdue
  | succ k =>
    have hpos' : 0 < (t.later 1).period.nanos := hpos
    rw [Nat.succ_lt_succ_iff, lt_ticksUntil_iff hpos', tickTime_later hroom,
      Nat.add_comm 1 k]

theorem ticksUntil_eq_zero {t : Timer} {target : Duration} (h : target.nanos < t.due.nanos) :
    t.ticksUntil target = 0 := by
  rw [ticksUntil, if_neg (Nat.not_le.mpr h)]

/-- The first tick beyond a time is the one that `ticksUntil` counts to. -/
theorem isLeast_tickTime_ticksUntil {t : Timer} (target : Duration)
    (hpos : 0 < t.period.nanos) :
    IsLeast {n | (∃ k, n = t.tickTime k) ∧ target.nanos < n}
      (t.tickTime (t.ticksUntil target)) := by
  constructor
  · refine ⟨⟨_, rfl⟩, ?_⟩
    have h := (lt_ticksUntil_iff hpos target (t.ticksUntil target)).not
    exact Nat.not_le.mp (h.mp (Nat.lt_irrefl _))
  · rintro n ⟨⟨k, rfl⟩, hk⟩
    have h := (lt_ticksUntil_iff hpos target k).not
    exact t.tickTime_mono (Nat.not_lt.mp (h.mpr (Nat.not_le.mpr hk)))

/-- No tick up to `target` moves the timer beyond the longest duration. -/
def Fits (target : Nat) (t : Timer) : Prop :=
  ∀ k, t.tickTime k ≤ target → t.tickTime (k + 1) ≤ Duration.longest.nanos

theorem Fits.later {target j : Nat} {t : Timer} (h : t.Fits target)
    (hj : t.tickTime j ≤ Duration.longest.nanos) : (t.later j).Fits target := by
  intro k hk
  rw [tickTime_later hj] at hk ⊢
  exact h (j + k) hk

/-- The first tick beyond the target is a duration. -/
theorem Fits.tickTime_le {target : Duration} {t : Timer} (h : t.Fits target.nanos)
    (hpos : 0 < t.period.nanos) :
    t.tickTime (t.ticksUntil target) ≤ Duration.longest.nanos := by
  cases hk : t.ticksUntil target with
  | zero =>
    rw [tickTime_zero]
    exact t.due.le_longest
  | succ k => exact h k ((lt_ticksUntil_iff hpos target k).mp (by omega))

theorem isBefore_iff {t u : Timer} :
    t.isBefore u = true ↔
      t.due.nanos < u.due.nanos ∨ (t.due.nanos = u.due.nanos ∧ t.id < u.id) := by
  simp [isBefore]

theorem isBefore_self (t : Timer) : t.isBefore t = false := by
  simp [isBefore]

theorem isBefore_asymm {t u : Timer} (h : t.isBefore u = true) : u.isBefore t = false := by
  rw [isBefore_iff] at h
  rw [← Bool.not_eq_true, isBefore_iff]
  omega

theorem not_isBefore_trans {t u v : Timer} (htu : t.isBefore u = false)
    (huv : u.isBefore v = false) : t.isBefore v = false := by
  rw [← Bool.not_eq_true, isBefore_iff] at htu huv ⊢
  omega

end Timer

namespace Timers

/-! ## 2. The earliest timer -/

theorem earliest?_eq_none_iff {target : Duration} {ts : List Timer} :
    earliest? target ts = none ↔ ∀ t ∈ ts, target.nanos < t.due.nanos := by
  induction ts with
  | nil => simp [earliest?]
  | cons t ts ih =>
    simp only [earliest?, List.forall_mem_cons]
    split
    · rename_i h
      refine ⟨fun h' => absurd h' ?_, fun h' => absurd h'.1 (Nat.not_lt.mpr h)⟩
      cases earliest? target ts with
      | none => simp
      | some u => simp only; split <;> simp
    · rename_i h
      rw [ih]
      exact ⟨fun h' => ⟨Nat.not_le.mp h, h'⟩, fun h' => h'.2⟩

/-- The earliest timer is due, and none that is due ticks before it. -/
theorem earliest?_spec {target : Duration} {ts : List Timer} {t : Timer}
    (h : earliest? target ts = some t) :
    t ∈ ts ∧ t.due.nanos ≤ target.nanos ∧
      ∀ u ∈ ts, u.due.nanos ≤ target.nanos → u.isBefore t = false := by
  induction ts generalizing t with
  | nil => simp [earliest?] at h
  | cons v ts ih =>
    simp only [earliest?] at h
    split at h
    · rename_i hv
      cases hu : earliest? target ts with
      | none =>
        rw [hu] at h
        obtain rfl : v = t := by simpa using h
        refine ⟨List.mem_cons_self, hv, ?_⟩
        intro u hmem hdue
        rcases List.mem_cons.mp hmem with rfl | hmem
        · exact u.isBefore_self
        · exact absurd (earliest?_eq_none_iff.mp hu u hmem) (Nat.not_lt.mpr hdue)
      | some w =>
        obtain ⟨hw, hwdue, hmin⟩ := ih hu
        rw [hu] at h
        simp only at h
        split at h
        · rename_i hwv
          obtain rfl : w = t := by simpa using h
          refine ⟨List.mem_cons_of_mem _ hw, hwdue, ?_⟩
          intro u hmem hdue
          rcases List.mem_cons.mp hmem with rfl | hmem
          · exact Timer.isBefore_asymm hwv
          · exact hmin u hmem hdue
        · rename_i hwv
          obtain rfl : v = t := by simpa using h
          refine ⟨List.mem_cons_self, hv, ?_⟩
          intro u hmem hdue
          rcases List.mem_cons.mp hmem with rfl | hmem
          · exact u.isBefore_self
          · exact Timer.not_isBefore_trans (hmin u hmem hdue) (Bool.eq_false_iff.mpr hwv)
    · obtain ⟨ht, hdue, hmin⟩ := ih h
      refine ⟨List.mem_cons_of_mem _ ht, hdue, ?_⟩
      intro u hmem hudue
      rcases List.mem_cons.mp hmem with rfl | hmem
      · contradiction
      · exact hmin u hmem hudue

/-! ## 3. One round of the loop -/

/-- Positive periods and distinct numbers. -/
structure Proper (ts : List Timer) : Prop where
  positive : ∀ t ∈ ts, 0 < t.period.nanos
  distinct : (ts.map Timer.id).Nodup

/-- The timer with number `id` ticks once. -/
def bump (id : Nat) (ts : List Timer) : List Timer :=
  ts.map fun t => if t.id = id then t.later 1 else t

theorem Proper.eq_of_id_eq {ts : List Timer} (h : Proper ts) {t u : Timer} (ht : t ∈ ts)
    (hu : u ∈ ts) (hid : t.id = u.id) : t = u :=
  List.inj_on_of_nodup_map h.distinct ht hu hid

theorem mem_bump {id : Nat} {ts : List Timer} {t : Timer} :
    t ∈ bump id ts ↔
      (∃ u ∈ ts, u.id = id ∧ t = u.later 1) ∨ (t ∈ ts ∧ t.id ≠ id) := by
  simp only [bump, List.mem_map]
  constructor
  · rintro ⟨u, hu, rfl⟩
    by_cases hid : u.id = id
    · exact Or.inl ⟨u, hu, hid, if_pos hid⟩
    · rw [if_neg hid]
      exact Or.inr ⟨hu, hid⟩
  · rintro (⟨u, hu, hid, rfl⟩ | ⟨ht, hid⟩)
    · exact ⟨u, hu, if_pos hid⟩
    · exact ⟨t, ht, if_neg hid⟩

/-- Ticking changes no number. -/
theorem bump_map_id (id : Nat) (ts : List Timer) :
    (bump id ts).map Timer.id = ts.map Timer.id := by
  rw [bump, List.map_map]
  refine List.map_congr_left fun t _ => ?_
  simp only [Function.comp_apply]
  split <;> rfl

theorem bump_of_notMem {id : Nat} {ts : List Timer} (h : id ∉ ts.map Timer.id) :
    bump id ts = ts := by
  have hne : ∀ t ∈ ts, (if t.id = id then t.later 1 else t) = t := by
    intro t ht
    exact if_neg fun e : t.id = id => h (e ▸ List.mem_map_of_mem ht)
  rw [bump, List.map_congr_left hne, List.map_id']

theorem Proper.bump {ts : List Timer} (h : Proper ts) (id : Nat) : Proper (bump id ts) := by
  constructor
  · intro t ht
    rcases mem_bump.mp ht with ⟨u, hu, -, rfl⟩ | ⟨ht, -⟩
    · exact h.positive u hu
    · exact h.positive t ht
  · rw [bump_map_id]
    exact h.distinct

theorem Proper.tail {t : Timer} {ts : List Timer} (h : Proper (t :: ts)) : Proper ts :=
  ⟨fun u hu => h.positive u (List.mem_cons_of_mem _ hu), (List.nodup_cons.mp h.distinct).2⟩

/-- What the loop writes back is one tick of the timer it chose. -/
theorem reschedule_eq_bump {ts : List Timer} (h : Proper ts) {t : Timer} (ht : t ∈ ts)
    {due : Duration} (hdue : due.nanos = t.due.nanos + t.period.nanos) :
    reschedule t.id due ts = bump t.id ts := by
  refine List.map_congr_left fun u hu => ?_
  by_cases hid : u.id = t.id
  · obtain rfl := h.eq_of_id_eq hu ht hid
    have hdue' : u.tickTime 1 = due.nanos := by
      rw [Timer.tickTime, Nat.one_mul, hdue]
    rw [if_pos rfl, if_pos rfl, Timer.later, hdue', Duration.ofNanos_nanos]
  · rw [if_neg hid, if_neg hid]

@[simp] theorem ticksDue_cons (target : Duration) (t : Timer) (ts : List Timer) :
    ticksDue target (t :: ts) = t.ticksUntil target + ticksDue target ts := rfl

theorem ticksUntil_le_ticksDue (target : Duration) {ts : List Timer} {t : Timer} (ht : t ∈ ts) :
    t.ticksUntil target ≤ ticksDue target ts := by
  induction ts with
  | nil => simp at ht
  | cons u ts ih =>
    rw [ticksDue_cons]
    rcases List.mem_cons.mp ht with rfl | ht
    · exact Nat.le_add_right _ _
    · exact Nat.le_trans (ih ht) (Nat.le_add_left _ _)

/-- **A round takes one tick away.**  The timer that ticked has one tick less to go, and no
other timer has its number. -/
theorem ticksDue_bump {target : Duration} {ts : List Timer} (h : Proper ts) {t : Timer}
    (ht : t ∈ ts) (hdue : t.due.nanos ≤ target.nanos)
    (hroom : t.tickTime 1 ≤ Duration.longest.nanos) :
    ticksDue target ts = ticksDue target (bump t.id ts) + 1 := by
  induction ts with
  | nil => simp at ht
  | cons u ts ih =>
    have hcons : bump t.id (u :: ts) =
        (if u.id = t.id then u.later 1 else u) :: bump t.id ts := rfl
    rw [hcons, ticksDue_cons, ticksDue_cons]
    rcases List.mem_cons.mp ht with rfl | ht
    · rw [if_pos rfl, bump_of_notMem (List.nodup_cons.mp h.distinct).1,
        Timer.ticksUntil_of_due (h.positive t ht) hdue hroom]
      omega
    · have hne : u.id ≠ t.id := fun e =>
        (List.nodup_cons.mp h.distinct).1 (e ▸ List.mem_map_of_mem ht)
      rw [if_neg hne, ih h.tail ht]
      omega

/-- The loop goes on exactly while ticks are due. -/
theorem earliest?_eq_none_of_ticksDue {target : Duration} {ts : List Timer} (h : Proper ts)
    (hzero : ticksDue target ts = 0) : earliest? target ts = none := by
  rw [earliest?_eq_none_iff]
  intro t ht
  have hle := ticksUntil_le_ticksDue target ht
  have hnot := (Timer.lt_ticksUntil_iff (h.positive t ht) target 0).not
  have := hnot.mp (by omega)
  rw [Timer.tickTime_zero] at this
  exact Nat.not_le.mp this

/-! ## 4. The whole loop -/

/-- What the loop leaves behind when it has fired all ticks of `ts` up to `target`: the ticks in
order, every tick of every timer among them, and the timers moved on behind `target`. -/
structure Fired (target : Duration) (ts ticks ts' : List Timer) : Prop where
  sorted : ticks.Pairwise fun t u => t.isBefore u = true
  mem_iff : ∀ x, x ∈ ticks ↔ ∃ t ∈ ts, ∃ k, t.tickTime k ≤ target.nanos ∧ x = t.later k
  countP_id : ∀ t ∈ ts, ticks.countP (fun x => x.id == t.id) = t.ticksUntil target
  rest : ts' = ts.map fun t => t.later (t.ticksUntil target)
  fits : ∀ t ∈ ts, t.Fits target.nanos

/-- Nothing is due, and nothing is fired. -/
theorem Fired.nil {target : Duration} {ts : List Timer}
    (h : ∀ t ∈ ts, target.nanos < t.due.nanos) : Fired target ts [] ts := by
  have hbeyond : ∀ t ∈ ts, ∀ k, ¬ t.tickTime k ≤ target.nanos := by
    intro t ht k hk
    have h0 := t.tickTime_mono (Nat.zero_le k)
    rw [Timer.tickTime_zero] at h0
    exact absurd (h t ht) (Nat.not_lt.mpr (Nat.le_trans h0 hk))
  refine ⟨List.Pairwise.nil, fun x => ⟨fun hx => absurd hx List.not_mem_nil, ?_⟩, ?_, ?_, ?_⟩
  · rintro ⟨t, ht, k, hk, -⟩
    exact absurd hk (hbeyond t ht k)
  · intro t ht
    rw [Timer.ticksUntil_eq_zero (h t ht), List.countP_nil]
  · have hid : ∀ t ∈ ts, t.later (t.ticksUntil target) = t := by
      intro t ht
      rw [Timer.ticksUntil_eq_zero (h t ht), Timer.later_zero]
    rw [List.map_congr_left hid, List.map_id']
  · exact fun t ht k hk => absurd hk (hbeyond t ht k)

/-- The earliest timer ticks before all ticks that are due once it has moved on. -/
theorem isBefore_of_mem_bump {target : Duration} {ts : List Timer} {t u : Timer}
    (hp : Proper ts) (ht : earliest? target ts = some t)
    (hroom : t.tickTime 1 ≤ Duration.longest.nanos) (hu : u ∈ bump t.id ts) {k : Nat}
    (hk : u.tickTime k ≤ target.nanos) : t.isBefore (u.later k) = true := by
  obtain ⟨hmem, -, hmin⟩ := earliest?_spec ht
  rw [Timer.isBefore_iff, Timer.later_due (Nat.le_trans hk target.le_longest), Timer.later_id]
  rcases mem_bump.mp hu with ⟨v, hv, hid, rfl⟩ | ⟨hu, hne⟩
  · obtain rfl := hp.eq_of_id_eq hv hmem hid
    have hlt := v.tickTime_lt (hp.positive v hv) (j := 0) (k := 1 + k) (by omega)
    rw [Timer.tickTime_zero] at hlt
    rw [Timer.tickTime_later hroom]
    exact Or.inl hlt
  · have hle := u.tickTime_mono (Nat.zero_le k)
    rw [Timer.tickTime_zero] at hle
    have hbefore := hmin u hu (Nat.le_trans hle hk)
    rw [← Bool.not_eq_true, Timer.isBefore_iff] at hbefore
    omega

/-- The ticks that are due are that of a timer that is due, and those that are due once it has
moved on. -/
theorem exists_later_iff {target : Duration} {ts : List Timer} {t : Timer} (hp : Proper ts)
    (hmem : t ∈ ts) (hdue : t.due.nanos ≤ target.nanos)
    (hroom : t.tickTime 1 ≤ Duration.longest.nanos) (x : Timer) :
    (∃ u ∈ ts, ∃ k, u.tickTime k ≤ target.nanos ∧ x = u.later k) ↔
      x = t ∨ ∃ u ∈ bump t.id ts, ∃ k, u.tickTime k ≤ target.nanos ∧ x = u.later k := by
  constructor
  · rintro ⟨u, hu, k, hk, rfl⟩
    by_cases hid : u.id = t.id
    · obtain rfl := hp.eq_of_id_eq hu hmem hid
      cases k with
      | zero => exact Or.inl u.later_zero
      | succ k =>
        rw [Nat.add_comm] at hk ⊢
        rw [← Timer.tickTime_later hroom] at hk
        refine Or.inr ⟨u.later 1, mem_bump.mpr (Or.inl ⟨u, hu, rfl, rfl⟩), k, hk, ?_⟩
        rw [Timer.later_later hroom]
    · exact Or.inr ⟨u, mem_bump.mpr (Or.inr ⟨hu, hid⟩), k, hk, rfl⟩
  · rintro (rfl | ⟨u, hu, k, hk, rfl⟩)
    · exact ⟨x, hmem, 0, by simpa using hdue, by simp⟩
    · rcases mem_bump.mp hu with ⟨v, hv, hid, rfl⟩ | ⟨hu, -⟩
      · obtain rfl := hp.eq_of_id_eq hv hmem hid
        rw [Timer.tickTime_later hroom] at hk
        exact ⟨v, hv, 1 + k, hk, Timer.later_later hroom k⟩
      · exact ⟨u, hu, k, hk, rfl⟩

/-- **One round in front of the others.**  The tick of the earliest timer comes before all ticks
that the loop fires once that timer has moved on. -/
theorem Fired.cons {target : Duration} {ts ticks ts' : List Timer} {t : Timer}
    (hp : Proper ts) (ht : earliest? target ts = some t)
    (hroom : t.tickTime 1 ≤ Duration.longest.nanos)
    (h : Fired target (bump t.id ts) ticks ts') : Fired target ts (t :: ticks) ts' := by
  obtain ⟨hmem, hdue, -⟩ := earliest?_spec ht
  have hself : t.later 1 ∈ bump t.id ts := mem_bump.mpr (Or.inl ⟨t, hmem, rfl, rfl⟩)
  have hother : ∀ u ∈ ts, u.id ≠ t.id → u ∈ bump t.id ts := fun u hu hne =>
    mem_bump.mpr (Or.inr ⟨hu, hne⟩)
  constructor
  · -- sorted
    refine List.pairwise_cons.mpr ⟨?_, h.sorted⟩
    intro x hx
    obtain ⟨u, hu, k, hk, rfl⟩ := (h.mem_iff x).mp hx
    exact isBefore_of_mem_bump hp ht hroom hu hk
  · -- mem_iff
    intro x
    rw [List.mem_cons, h.mem_iff, exists_later_iff hp hmem hdue hroom]
  · -- countP_id
    intro u hu
    rw [List.countP_cons]
    by_cases hid : u.id = t.id
    · obtain rfl := hp.eq_of_id_eq hu hmem hid
      rw [if_pos (by simp), Timer.ticksUntil_of_due (hp.positive u hu) hdue hroom,
        ← h.countP_id _ hself]
      rfl
    · rw [if_neg (by simpa using fun e : t.id = u.id => hid e.symm),
        ← h.countP_id u (hother u hu hid), Nat.add_zero]
  · -- rest
    rw [h.rest, bump, List.map_map]
    refine List.map_congr_left fun u hu => ?_
    simp only [Function.comp_apply]
    by_cases hid : u.id = t.id
    · obtain rfl := hp.eq_of_id_eq hu hmem hid
      rw [if_pos rfl, Timer.later_later hroom,
        Timer.ticksUntil_of_due (hp.positive u hu) hdue hroom, Nat.add_comm]
    · rw [if_neg hid]
  · -- fits
    intro u hu
    by_cases hid : u.id = t.id
    · obtain rfl := hp.eq_of_id_eq hu hmem hid
      intro k hk
      cases k with
      | zero => exact hroom
      | succ k =>
        have hnext := h.fits _ hself k
        rw [Timer.tickTime_later hroom, Timer.tickTime_later hroom] at hnext
        rw [Nat.add_comm 1 k] at hnext
        rw [Nat.add_comm 1 (k + 1)] at hnext
        exact hnext hk
    · exact h.fits u (hother u hu hid)

theorem tickTime_one_of_add? {t : Timer} {due : Duration} (h : t.due.add? t.period = some due) :
    t.tickTime 1 ≤ Duration.longest.nanos := by
  rw [Timer.tickTime, Nat.one_mul, ← Duration.add?_eq_some_iff.mp h]
  exact due.le_longest

/-- **The loop, run for as many rounds as ticks are due, fires them all.** -/
theorem fired_of_fire {target : Duration} : ∀ (n : Nat) {ts ticks ts' : List Timer},
    Proper ts → ticksDue target ts ≤ n → fire target n ts = .ok (ticks, ts') →
    Fired target ts ticks ts'
  | 0, ts, ticks, ts', hp, hn, h => by
    have hnone := earliest?_eq_none_of_ticksDue hp (Nat.le_zero.mp hn)
    obtain ⟨rfl, rfl⟩ := Prod.mk.inj (Except.ok.inj h)
    exact Fired.nil (earliest?_eq_none_iff.mp hnone)
  | n + 1, ts, ticks, ts', hp, hn, h => by
    simp only [fire] at h
    split at h
    · rename_i hnone
      obtain ⟨rfl, rfl⟩ := Prod.mk.inj (Except.ok.inj h)
      exact Fired.nil (earliest?_eq_none_iff.mp hnone)
    · rename_i t ht
      obtain ⟨hmem, hdue, -⟩ := earliest?_spec ht
      split at h
      · simp at h
      · rename_i due hadd
        rw [reschedule_eq_bump hp hmem (Duration.add?_eq_some_iff.mp hadd)] at h
        split at h
        · simp at h
        · rename_i ticks₁ ts₁ hfire
          obtain ⟨rfl, rfl⟩ := Prod.mk.inj (Except.ok.inj h)
          have hroom := tickTime_one_of_add? hadd
          have hless := ticksDue_bump hp hmem hdue hroom
          exact Fired.cons hp ht hroom (fired_of_fire n (hp.bump t.id) (by omega) hfire)

/-- If every tick fits, the loop comes through. -/
theorem exists_fire {target : Duration} : ∀ (n : Nat) {ts : List Timer},
    Proper ts → (∀ t ∈ ts, t.Fits target.nanos) →
      ∃ ticks ts', fire target n ts = .ok (ticks, ts')
  | 0, ts, _, _ => ⟨[], ts, rfl⟩
  | n + 1, ts, hp, hfits => by
    simp only [fire]
    split
    · exact ⟨[], ts, rfl⟩
    · rename_i t ht
      obtain ⟨hmem, hdue, -⟩ := earliest?_spec ht
      have hroom : t.tickTime 1 ≤ Duration.longest.nanos :=
        hfits t hmem 0 (by simpa using hdue)
      have hadd := Duration.add?_of_le (by rwa [Timer.tickTime, Nat.one_mul] at hroom)
      have hfits' : ∀ u ∈ bump t.id ts, u.Fits target.nanos := by
        intro u hu
        rcases mem_bump.mp hu with ⟨v, hv, hid, rfl⟩ | ⟨hu, -⟩
        · obtain rfl := hp.eq_of_id_eq hv hmem hid
          exact (hfits v hv).later hroom
        · exact hfits u hu
      obtain ⟨ticks, ts', hfire⟩ := exists_fire n (hp.bump t.id) hfits'
      rw [hadd]
      simp only
      rw [reschedule_eq_bump hp hmem (Duration.add?_eq_some_iff.mp hadd), hfire]
      exact ⟨t :: ticks, ts', rfl⟩

/-! ## 5. The loop ends

`ticksDue` is computed before the loop starts, and it is not what stops the loop: when that many
rounds are over no timer is due, and more rounds change nothing. -/

/-- One round: the earliest timer that is due moves on by its period. -/
def Round (target : Duration) (ts ts' : List Timer) : Prop :=
  ∃ t due, earliest? target ts = some t ∧ t.due.add? t.period = some due ∧
    ts' = reschedule t.id due ts

/-- A round is the tick of a timer that is due. -/
theorem Round.eq_bump {target : Duration} {ts ts' : List Timer} (hp : Proper ts)
    (h : Round target ts ts') : ∃ t ∈ ts, t.due.nanos ≤ target.nanos
      ∧ t.tickTime 1 ≤ Duration.longest.nanos ∧ ts' = bump t.id ts := by
  obtain ⟨t, due, ht, hadd, rfl⟩ := h
  obtain ⟨hmem, hdue, -⟩ := earliest?_spec ht
  exact ⟨t, hmem, hdue, tickTime_one_of_add? hadd,
    reschedule_eq_bump hp hmem (Duration.add?_eq_some_iff.mp hadd)⟩

/-- **No sequence of rounds goes on for ever.** -/
theorem Proper.acc_round {target : Duration} {ts : List Timer} (hp : Proper ts) :
    Acc (fun b a => Round target a b) ts := by
  -- every round takes one away from the ticks that are due
  generalize hn : ticksDue target ts = n
  induction n using Nat.strongRecOn generalizing ts with
  | ind n ih =>
    refine Acc.intro _ fun ts' h => ?_
    obtain ⟨t, hmem, hdue, hroom, rfl⟩ := h.eq_bump hp
    have hless := ticksDue_bump hp hmem hdue hroom
    exact ih _ (by omega) (hp.bump t.id) rfl

/-- The loop changes neither periods nor numbers. -/
theorem Fired.proper {target : Duration} {ts ticks ts₁ : List Timer} (hp : Proper ts)
    (h : Fired target ts ticks ts₁) : Proper ts₁ := by
  constructor
  · intro t' ht'
    rw [h.rest] at ht'
    obtain ⟨t, ht, rfl⟩ := List.mem_map.mp ht'
    exact hp.positive t ht
  · have hids : ts₁.map Timer.id = ts.map Timer.id := by
      rw [h.rest, List.map_map]
      rfl
    rw [hids]
    exact hp.distinct

/-- **More rounds than ticks change nothing.** -/
theorem fire_eq_of_ticksDue_le {target : Duration} : ∀ (m n : Nat) {ts : List Timer},
    Proper ts → ticksDue target ts ≤ m → ticksDue target ts ≤ n →
    fire target m ts = fire target n ts
  | 0, 0, _, _, _, _ => rfl
  | 0, n + 1, ts, hp, hm, _ => by
    have hnone := earliest?_eq_none_of_ticksDue hp (Nat.le_zero.mp hm)
    simp only [fire, hnone]
  | m + 1, 0, ts, hp, _, hn => by
    have hnone := earliest?_eq_none_of_ticksDue hp (Nat.le_zero.mp hn)
    simp only [fire, hnone]
  | m + 1, n + 1, ts, hp, hm, hn => by
    simp only [fire]
    cases ht : earliest? target ts with
    | none => rfl
    | some t =>
      obtain ⟨hmem, hdue, -⟩ := earliest?_spec ht
      simp only
      cases hadd : t.due.add? t.period with
      | none => rfl
      | some due =>
        have hless := ticksDue_bump hp hmem hdue (tickTime_one_of_add? hadd)
        simp only
        rw [reschedule_eq_bump hp hmem (Duration.add?_eq_some_iff.mp hadd),
          fire_eq_of_ticksDue_le m n (hp.bump t.id) (by omega) (by omega)]

/-! ## 6. A step of the clock -/

/-- The step of the clock adds no two durations beyond the longest one. -/
def Fits (ts : Timers) (dt : Duration) : Prop :=
  ts.clock.nanos + dt.nanos ≤ Duration.longest.nanos ∧
    ∀ t ∈ ts.timers, t.Fits (ts.clock.nanos + dt.nanos)

theorem advance_of_tick {ts ts' : Timers} {dt : Duration} {ticks : List Timer}
    (h : ts.tick dt = .ok (ticks, ts')) :
    ts.advance dt = .ok (ticks.map Timer.statement, ts') := by
  rw [advance, h]

theorem exists_tick_of_advance {ts ts' : Timers} {dt : Duration} {fired : List Statement}
    (h : ts.advance dt = .ok (fired, ts')) :
    ∃ ticks, ts.tick dt = .ok (ticks, ts') ∧ fired = ticks.map Timer.statement := by
  unfold advance at h
  split at h
  · simp at h
  · rename_i ticks ts₁ htick
    obtain ⟨rfl, rfl⟩ := Prod.mk.inj (Except.ok.inj h)
    exact ⟨ticks, htick, rfl⟩

/-- A step of the clock that has a result comes from a loop that has one. -/
theorem exists_fire_of_tick {ts ts' : Timers} {dt : Duration} {ticks : List Timer}
    (h : ts.tick dt = .ok (ticks, ts')) :
    ∃ target timers, ts.clock.add? dt = some target ∧
      fire target (ticksDue target ts.timers) ts.timers = .ok (ticks, timers) ∧
      ts' = { ts with timers := timers, clock := target } := by
  unfold tick at h
  split at h
  · simp at h
  · rename_i target hadd
    split at h
    · simp at h
    · rename_i ticks₁ timers hfire
      obtain ⟨rfl, rfl⟩ := Prod.mk.inj (Except.ok.inj h)
      exact ⟨target, timers, hadd, hfire, rfl⟩

/-- What a step of the clock does. -/
theorem fired_of_tick {ts ts' : Timers} {dt : Duration} {ticks : List Timer}
    (hp : Proper ts.timers) (h : ts.tick dt = .ok (ticks, ts')) :
    ts'.clock.nanos = ts.clock.nanos + dt.nanos ∧ ts'.nextId = ts.nextId ∧
      Fired ts'.clock ts.timers ticks ts'.timers := by
  obtain ⟨target, timers, hadd, hfire, rfl⟩ := exists_fire_of_tick h
  exact ⟨Duration.add?_eq_some_iff.mp hadd, rfl, fired_of_fire _ hp (Nat.le_refl _) hfire⟩

theorem exists_tick {ts : Timers} {dt : Duration} (hp : Proper ts.timers)
    (hfits : ts.Fits dt) : ∃ ticks ts', ts.tick dt = .ok (ticks, ts') := by
  have hadd := Duration.add?_of_le hfits.1
  have hsum := Duration.add?_eq_some_iff.mp hadd
  generalize Duration.ofNanos (ts.clock.nanos + dt.nanos) = target at hadd hsum
  obtain ⟨ticks, timers, hfire⟩ :=
    exists_fire (ticksDue target ts.timers) hp (hsum ▸ hfits.2)
  refine ⟨ticks, { ts with timers := timers, clock := target }, ?_⟩
  rw [tick, hadd]
  simp only
  rw [hfire]

/-- A step of the clock that has a result adds nothing beyond the longest duration. -/
theorem fits_of_tick {ts ts' : Timers} {dt : Duration} {ticks : List Timer}
    (hp : Proper ts.timers) (h : ts.tick dt = .ok (ticks, ts')) : ts.Fits dt := by
  obtain ⟨hclock, -, hfired⟩ := fired_of_tick hp h
  rw [Fits, ← hclock]
  exact ⟨ts'.clock.le_longest, hfired.fits⟩

/-- Every timer of the first list is one of the second, with its period and its statement, maybe
at another time. -/
def DrawnFrom (ts ts₁ : List Timer) : Prop :=
  ∀ x ∈ ts, ∃ t ∈ ts₁, t.period = x.period ∧ t.statement = x.statement

theorem DrawnFrom.refl (ts : List Timer) : DrawnFrom ts ts := fun x hx => ⟨x, hx, rfl, rfl⟩

theorem DrawnFrom.trans {ts ts₁ ts₂ : List Timer} (h : DrawnFrom ts ts₁) (h' : DrawnFrom ts₁ ts₂) :
    DrawnFrom ts ts₂ := by
  intro x hx
  obtain ⟨t, ht, hperiod, hstatement⟩ := h x hx
  obtain ⟨u, hu, hperiod', hstatement'⟩ := h' t ht
  exact ⟨u, hu, hperiod'.trans hperiod, hstatement'.trans hstatement⟩

theorem drawnFrom_reschedule (id : Nat) (due : Duration) (ts : List Timer) :
    DrawnFrom (reschedule id due ts) ts := by
  intro x hx
  obtain ⟨t, ht, rfl⟩ := List.mem_map.mp hx
  refine ⟨t, ht, ?_⟩
  split <;> exact ⟨rfl, rfl⟩

/-- Whatever the timers are, the loop makes up no period and no statement. -/
theorem drawnFrom_of_fire {target : Duration} : ∀ (n : Nat) {ts ticks ts' : List Timer},
    fire target n ts = .ok (ticks, ts') → DrawnFrom ticks ts ∧ DrawnFrom ts' ts
  | 0, ts, ticks, ts', h => by
    obtain ⟨rfl, rfl⟩ := Prod.mk.inj (Except.ok.inj h)
    exact ⟨fun _ hx => absurd hx List.not_mem_nil, .refl _⟩
  | n + 1, ts, ticks, ts', h => by
    simp only [fire] at h
    split at h
    · obtain ⟨rfl, rfl⟩ := Prod.mk.inj (Except.ok.inj h)
      exact ⟨fun _ hx => absurd hx List.not_mem_nil, .refl _⟩
    · rename_i t ht
      split at h
      · simp at h
      · rename_i due _
        split at h
        · simp at h
        · rename_i ticks₁ ts₁ hfire
          obtain ⟨rfl, rfl⟩ := Prod.mk.inj (Except.ok.inj h)
          obtain ⟨hticks, hrest⟩ := drawnFrom_of_fire n hfire
          have hmoved := drawnFrom_reschedule t.id due ts
          refine ⟨?_, hrest.trans hmoved⟩
          exact List.forall_mem_cons.mpr
            ⟨⟨t, (earliest?_spec ht).1, rfl, rfl⟩, hticks.trans hmoved⟩

/-- What a step of the clock carries out is what some timers carry out, and it leaves periods and
statements as they were. -/
theorem drawnFrom_of_advance {ts ts₁ : Timers} {dt : Duration} {fired : List Statement}
    (h : ts.advance dt = .ok (fired, ts₁)) :
    (∀ st ∈ fired, ∃ t ∈ ts.timers, t.statement = st) ∧ DrawnFrom ts₁.timers ts.timers := by
  obtain ⟨ticks, htick, rfl⟩ := exists_tick_of_advance h
  obtain ⟨target, timers, -, hfire, rfl⟩ := exists_fire_of_tick htick
  obtain ⟨hticks, hrest⟩ := drawnFrom_of_fire _ hfire
  refine ⟨fun st hst => ?_, hrest⟩
  obtain ⟨x, hx, rfl⟩ := List.mem_map.mp hst
  obtain ⟨t, ht, -, hstatement⟩ := hticks x hx
  exact ⟨t, ht, hstatement⟩

/-- The order of ticks: by time, and at one time by the number of the timer. -/
def TickBefore (p q : Timer × Nat) : Prop :=
  p.1.tickTime p.2 < q.1.tickTime q.2 ∨
    (p.1.tickTime p.2 = q.1.tickTime q.2 ∧ p.1.id < q.1.id)

/-- A list of ticks as pairs of a timer and the number of its tick. -/
theorem Fired.exists_pairs {target : Duration} {ts ticks ts' : List Timer} (hp : Proper ts)
    (h : Fired target ts ticks ts') :
    ∃ ps : List (Timer × Nat), ps.map (fun p => p.1.later p.2) = ticks ∧
      ∀ t k, (t, k) ∈ ps ↔ t ∈ ts ∧ t.tickTime k ≤ target.nanos := by
  choose owner howner number hdue heq using fun x hx => (h.mem_iff x).mp hx
  have hmap : (ticks.attach.map fun x => (owner x.1 x.2, number x.1 x.2)).map
      (fun p => p.1.later p.2) = ticks := by
    rw [List.map_map]
    have hval : ∀ x ∈ ticks.attach, ((fun p : Timer × Nat => p.1.later p.2) ∘
        fun x : {x // x ∈ ticks} => (owner x.1 x.2, number x.1 x.2)) x = x.1 :=
      fun x _ => (heq x.1 x.2).symm
    rw [List.map_congr_left hval, List.attach_map_subtype_val]
  refine ⟨_, hmap, fun t k => ⟨?_, ?_⟩⟩
  · intro hmem
    obtain ⟨x, -, hx⟩ := List.mem_map.mp hmem
    simp only [Prod.mk.injEq] at hx
    obtain ⟨rfl, rfl⟩ := hx
    exact ⟨howner x.1 x.2, hdue x.1 x.2⟩
  · rintro ⟨ht, hk⟩
    have hx : t.later k ∈ ticks := (h.mem_iff _).mpr ⟨t, ht, k, hk, rfl⟩
    refine List.mem_map.mpr ⟨⟨t.later k, hx⟩, List.mem_attach _ _, ?_⟩
    -- `owner` and `number` were chosen: the number of `x` names its timer, its time the tick
    have hsame := heq _ hx
    have howner' : owner _ hx = t :=
      hp.eq_of_id_eq (howner _ hx) ht (congrArg Timer.id hsame).symm
    have htime : t.tickTime k = t.tickTime (number _ hx) := by
      have hdue' := hdue _ hx
      rw [howner'] at hsame hdue'
      have hnanos := congrArg (fun u : Timer => u.due.nanos) hsame
      rwa [Timer.later_due (Nat.le_trans hk target.le_longest),
        Timer.later_due (Nat.le_trans hdue' target.le_longest)] at hnanos
    have hnumber : number _ hx = k := by
      rcases Nat.lt_trichotomy (number _ hx) k with hlt | heq | hlt
      · exact absurd htime.symm (Nat.ne_of_lt (t.tickTime_lt (hp.positive t ht) hlt))
      · exact heq
      · exact absurd htime (Nat.ne_of_lt (t.tickTime_lt (hp.positive t ht) hlt))
    rw [howner', hnumber]

/-- These pairs stand in the order of their ticks. -/
theorem Fired.pairwise_tickBefore {target : Duration} {ts ts' : List Timer}
    {ps : List (Timer × Nat)} (h : Fired target ts (ps.map fun p => p.1.later p.2) ts')
    (hps : ∀ t k, (t, k) ∈ ps ↔ t ∈ ts ∧ t.tickTime k ≤ target.nanos) :
    ps.Pairwise TickBefore := by
  have hdue (p : Timer × Nat) (hp : p ∈ ps) :
      (p.1.later p.2).due.nanos = p.1.tickTime p.2 :=
    Timer.later_due (Nat.le_trans ((hps p.1 p.2).mp hp).2 target.le_longest)
  refine (List.pairwise_map.mp h.sorted).imp_of_mem fun {x y} hx hy hbefore => ?_
  rw [Timer.isBefore_iff, hdue x hx, hdue y hy] at hbefore
  exact hbefore

theorem nodup_of_tickBefore {ps : List (Timer × Nat)} (h : ps.Pairwise TickBefore) :
    ps.Nodup := by
  refine h.imp ?_
  rintro p q hbefore rfl
  unfold TickBefore at hbefore
  omega

/-- **A step of the clock fires the merged ticks of all timers.**  What comes back is the
statements of all pairs of a timer and a tick that is not beyond the new clock, each pair once,
sorted by time and number.  The timers keep their places and all that they hold but the time of
the next tick, which is their first tick beyond the new clock. -/
theorem advance_fires_merged_ticks {ts : Timers} {dt : Duration} (hp : Proper ts.timers)
    (hfits : ts.Fits dt) :
    ∃ (ticks : List (Timer × Nat)) (ts' : Timers),
      ts.advance dt = .ok (ticks.map fun p => p.1.statement, ts') ∧
      (∀ t k, (t, k) ∈ ticks ↔
        t ∈ ts.timers ∧ t.tickTime k ≤ ts.clock.nanos + dt.nanos) ∧
      ticks.Nodup ∧ ticks.Pairwise TickBefore ∧
      ts'.clock.nanos = ts.clock.nanos + dt.nanos ∧ ts'.nextId = ts.nextId ∧
      List.Forall₂ (fun t t' => t'.id = t.id ∧ t'.period = t.period ∧
          t'.statement = t.statement ∧
          IsLeast {n | (∃ k, n = t.tickTime k) ∧ ts'.clock.nanos < n} t'.due.nanos)
        ts.timers ts'.timers := by
  obtain ⟨ticks, ts', h⟩ := exists_tick hp hfits
  obtain ⟨hclock, hnext, hfired⟩ := fired_of_tick hp h
  obtain ⟨ps, rfl, hps⟩ := hfired.exists_pairs hp
  have hsorted := hfired.pairwise_tickBefore hps
  refine ⟨ps, ts', ?_, ?_, nodup_of_tickBefore hsorted, hsorted, hclock, hnext, ?_⟩
  · rw [advance_of_tick h, List.map_map]
    rfl
  · intro t k
    rw [hps, hclock]
  · rw [hfired.rest, List.forall₂_map_right_iff, List.forall₂_same]
    intro t ht
    refine ⟨rfl, rfl, rfl, ?_⟩
    rw [Timer.later_due ((hfired.fits t ht).tickTime_le (hp.positive t ht))]
    exact Timer.isLeast_tickTime_ticksUntil _ (hp.positive t ht)

/-- A timer of three nanoseconds, one of one, and one more of three. -/
def threeTimers : Timers :=
  let timer (id n : Nat) (text : String) : Timer :=
    ⟨id, .ofNanos n, .ofNanos n, ⟨id + 1, .act (.say text)⟩⟩
  ⟨[timer 0 3 "slow", timer 1 1 "fast", timer 2 3 "slow2"], 3, .zero⟩

theorem advance_threeTimers_fires_merged_ticks :
    Proper threeTimers.timers ∧ threeTimers.Fits (.ofNanos 3) ∧
      (threeTimers.advance (.ofNanos 3)).toOption.map (fun r => r.1.map Statement.line)
        = some [2, 2, 1, 2, 3] ∧
      ∃ (ticks : List (Timer × Nat)) (ts' : Timers),
        threeTimers.advance (.ofNanos 3) = .ok (ticks.map fun p => p.1.statement, ts') ∧
        ticks.Pairwise TickBefore ∧ ts'.clock.nanos = 3 := by
  have hp : Proper threeTimers.timers := ⟨by decide, by decide⟩
  have hfits : threeTimers.Fits (.ofNanos 3) := by
    constructor
    · decide
    · intro t ht k hk
      have hperiods : ∀ u ∈ threeTimers.timers, u.period.nanos ≤ 3 := by decide
      have hperiod := hperiods t ht
      have hlong : 6 ≤ Duration.longest.nanos := by decide
      have hk' : t.tickTime k ≤ 3 := hk
      rw [Timer.tickTime_succ]
      omega
  obtain ⟨ticks, ts', h, -, -, hsorted, hclock, -⟩ := advance_fires_merged_ticks hp hfits
  exact ⟨hp, hfits, rfl, ticks, ts', h, hsorted, hclock⟩

end Timers
end StageScript

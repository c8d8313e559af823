/-
# Periods of timers

The period of a timer is a number of seconds, and a stage counts in nanoseconds.  A number is
rounded to the nearest of these, a half to the even neighbour, and then raised to the shortest
period of the settings.

In between, a period of nothing is refused as if it were not positive.  Positive numbers are
refused as well when they are rounded to nothing, although they would be raised if they were not
(`run_every_by_value`): half a nanosecond is the bound, not zero.

At the other end the bound is `2 ^ 64` seconds.  Rounding does not lead beyond it: a double of this
size has no fraction, and one with a fraction is far smaller (`nanosOf_le_limit`).
-/
import StageScript.Proofs.Decimal.Bits
import StageScript.Proofs.Decimal.Nearest
import StageScript.Proofs.Stage.Frame
import StageScript.Token.Lexer

namespace StageScript

/-! ## 1. Numbers of nanoseconds -/

namespace Decimal

/-- The double is finite, and `v` is its value. -/
def HasValue (x : Float) (v : ℚ) : Prop :=
  ∃ negative m q, Binary.ofFloat x = .finite negative m q
    ∧ v = (if negative then -1 else 1) * (m * 2 ^ q)

/-- The whole number next to `v`, and the even one of two that are equally near. -/
def IsWholeNext (v : ℚ) (n : Nat) : Prop := |v - n| ≤ 1 / 2 ∧ (|v - n| = 1 / 2 → n % 2 = 0)

variable {v : ℚ} {n : Nat}

/-- What is not more than a half is rounded to zero. -/
theorem IsWholeNext.eq_zero_iff (h : IsWholeNext v n) (hv : 0 ≤ v) : n = 0 ↔ v ≤ 1 / 2 := by
  obtain ⟨hnear, heven⟩ := h
  constructor
  · rintro rfl
    rw [Nat.cast_zero, sub_zero, abs_of_nonneg hv] at hnear
    exact hnear
  · intro hsmall
    obtain ⟨hlow, -⟩ := abs_le.mp hnear
    have hle : (n : ℚ) ≤ 1 := by linarith
    rcases Nat.le_one_iff_eq_zero_or_eq_one.mp (by exact_mod_cast hle) with hn | rfl
    · exact hn
    · -- from the middle the way is to zero, and not to one
      have hv' : v = 1 / 2 := by
        rw [Nat.cast_one] at hlow
        linarith
      rw [hv'] at heven
      exact absurd (heven (by norm_num)) (by decide)

/-- A magnitude behind a minus is negative, unless it is zero. -/
theorem signed_neg_iff (negative : Bool) (m : Nat) (q : Int) :
    (if negative then -1 else 1) * (m * 2 ^ q : ℚ) < 0 ↔ negative = true ∧ m ≠ 0 := by
  cases negative with
  | false =>
    have hpos : (0 : ℚ) ≤ m * 2 ^ q := by positivity
    simpa using hpos
  | true =>
    have htwo : (0 : ℚ) < 2 ^ q := zpow_pos two_pos q
    rw [if_pos rfl, neg_one_mul, neg_lt_zero, mul_pos_iff_of_pos_right htwo, Nat.cast_pos,
      Nat.pos_iff_ne_zero]
    simp

theorem signed_of_nonneg {negative : Bool} {m : Nat} {q : Int}
    (h : (0 : ℚ) ≤ (if negative then -1 else 1) * (m * 2 ^ q)) :
    (if negative then -1 else 1) * (m * 2 ^ q : ℚ) = m * 2 ^ q := by
  cases negative with
  | false => rw [if_neg Bool.false_ne_true, one_mul]
  | true =>
    -- behind a minus, zero alone is not negative
    have hm : m = 0 := by
      by_contra hm
      exact absurd ((signed_neg_iff true m q).mpr ⟨rfl, hm⟩) (not_lt.mpr h)
    rw [hm, Nat.cast_zero, zero_mul, mul_zero]

/-- The quotient of a magnitude is its multiple. -/
theorem quotient_div (m : Nat) (q : Int) (factor : Nat) :
    ((Binary.quotient m q factor).1 : ℚ) / (Binary.quotient m q factor).2
      = m * 2 ^ q * factor := by
  have hshift := cast_shiftLeft_div m 1 (-q)
  rw [neg_neg, Nat.cast_one, div_one, zpow_neg, div_inv_eq_mul] at hshift
  rw [Binary.quotient, Nat.cast_mul, mul_div_right_comm, hshift]

theorem roundHalfEven_le (num den : Nat) : roundHalfEven num den ≤ num / den + 1 := by
  simp only [roundHalfEven]
  split
  · exact Nat.le_succ _
  · exact Nat.le_refl _

theorem roundHalfEven_one (num : Nat) : roundHalfEven num 1 = num := by
  simp [roundHalfEven, Nat.mod_one]

theorem quotient_snd_pos (m : Nat) (q : Int) (factor : Nat) :
    0 < (Binary.quotient m q factor).2 := by
  rw [Binary.quotient, Nat.one_shiftLeft]
  exact Nat.two_pow_pos _

end Decimal

open Decimal (HasValue IsWholeNext)

namespace Duration

variable {x : Float} {v : ℚ} {negative : Bool} {m : Nat} {q : Int}

theorem cast_second : (second : ℚ) = 10 ^ 9 := by norm_num [second]

/-- The nanoseconds of a magnitude. -/
def nanosOf (m : Nat) (q : Int) : Nat :=
  Decimal.roundHalfEven (Decimal.Binary.quotient m q second).1
    (Decimal.Binary.quotient m q second).2

theorem isWholeNext_nanosOf (m : Nat) (q : Int) :
    IsWholeNext (m * 2 ^ q * 10 ^ 9) (nanosOf m q) := by
  have hround := Decimal.abs_sub_roundHalfEven_le (Decimal.Binary.quotient m q second).1
    (Decimal.quotient_snd_pos m q second)
  rwa [Decimal.quotient_div, cast_second] at hround

/-- A magnitude of `2 ^ 64` seconds is too large. -/
theorem size_le_quotient_iff (m : Nat) (q : Int) :
    UInt64.size * second * (Decimal.Binary.quotient m q second).2
        ≤ (Decimal.Binary.quotient m q second).1
      ↔ (2 : ℚ) ^ 64 ≤ m * 2 ^ q := by
  have hden : (0 : ℚ) < (Decimal.Binary.quotient m q second).2 := by
    exact_mod_cast Decimal.quotient_snd_pos m q second
  have hsize : (UInt64.size : ℚ) = 2 ^ 64 := by norm_num [UInt64.size]
  rw [← Nat.cast_le (α := ℚ), Nat.cast_mul, Nat.cast_mul, ← le_div_iff₀ hden,
    Decimal.quotient_div, hsize, cast_second]
  exact mul_le_mul_iff_left₀ (by norm_num)

/-- The nanoseconds of a double below `2 ^ 64` seconds are a duration. -/
theorem nanosOf_le_limit (hm : m < 2 * 1 <<< 52) (h : (m * 2 ^ q : ℚ) < 2 ^ 64) :
    nanosOf m q ≤ limit := by
  have hin := (size_le_quotient_iff m q).not.mpr (not_le.mpr h)
  simp only [Decimal.Binary.quotient, not_le] at hin
  simp only [nanosOf, Decimal.Binary.quotient]
  by_cases hq : 0 ≤ q
  · -- no fraction: nothing is rounded
    have hden : (-q).toNat = 0 := by omega
    rw [hden, Nat.shiftLeft_zero, mul_one] at hin
    rw [hden, Nat.shiftLeft_zero, Decimal.roundHalfEven_one]
    exact Nat.le_sub_one_of_lt hin
  · have hnum : q.toNat = 0 := by omega
    rw [hnum, Nat.shiftLeft_zero]
    calc Decimal.roundHalfEven (m * second) (1 <<< (-q).toNat)
        ≤ m * second / 1 <<< (-q).toNat + 1 := Decimal.roundHalfEven_le _ _
      _ ≤ m * second + 1 := Nat.succ_le_succ (Nat.div_le_self _ _)
      _ ≤ limit := by
        have hsize : limit = 18446744073709551616 * 1000000000 - 1 := rfl
        have hsecond : second = 1000000000 := rfl
        rw [hsize, hsecond]
        omega

/-- From `2 ^ 64` seconds on they are too many. -/
theorem limit_lt_nanosOf (h : (2 : ℚ) ^ 64 ≤ m * 2 ^ q) : limit < nanosOf m q := by
  obtain ⟨hnear, -⟩ := abs_le.mp (isWholeNext_nanosOf m q).1
  obtain ⟨-, hfar⟩ := abs_le.mp (isWholeNext_nanosOf m q).1
  have hlarge : ((limit + 1 : Nat) : ℚ) ≤ m * 2 ^ q * 10 ^ 9 := by
    have hsize : ((limit + 1 : Nat) : ℚ) = 2 ^ 64 * 10 ^ 9 := by
      norm_num [limit, second, UInt64.size]
    rw [hsize]
    exact mul_le_mul_of_nonneg_right h (by norm_num)
  have hnext : ((limit + 1 : Nat) : ℚ) < ((nanosOf m q + 1 : Nat) : ℚ) := by
    push_cast at hlarge ⊢
    linarith
  exact Nat.lt_of_succ_lt_succ (by exact_mod_cast hnext)

/-- A finite number of seconds: it has no minus unless it is zero. -/
theorem ofSeconds?_of_finite (h : Decimal.Binary.ofFloat x = .finite negative m q) :
    ofSeconds? x = if negative = true ∧ m ≠ 0 then none else ofNanos? (nanosOf m q) := by
  rw [ofSeconds?, h]
  simp only [Bool.and_eq_true, bne_iff_ne, nanosOf]

/-- **A number of seconds is rounded to nanoseconds**, if it is not negative and not too large. -/
theorem ofSeconds?_by_value (hx : HasValue x v) :
    (v < 0 ∨ 2 ^ 64 ≤ v → ofSeconds? x = none)
      ∧ (0 ≤ v → v < 2 ^ 64 →
          ∃ d, IsWholeNext (v * 10 ^ 9) d.nanos ∧ ofSeconds? x = some d) := by
  obtain ⟨negative, m, q, hfinite, rfl⟩ := hx
  have hminus := Decimal.signed_neg_iff negative m q
  have hm : m < 2 * 1 <<< 52 := (Decimal.ofFloat_eq_finite_iff.mp hfinite).1.small
  rw [ofSeconds?_of_finite hfinite]
  constructor
  · rintro (hneg | hlarge)
    · exact if_pos (hminus.mp hneg)
    · rw [Decimal.signed_of_nonneg (le_trans (by norm_num) hlarge)] at hlarge
      have hnone : ofNanos? (nanosOf m q) = none := dif_neg (not_le.mpr (limit_lt_nanosOf hlarge))
      rw [hnone, ite_self]
  · intro hnonneg hsmall
    have hplus : ¬ (negative = true ∧ m ≠ 0) := hminus.not.mp (not_lt.mpr hnonneg)
    rw [Decimal.signed_of_nonneg hnonneg] at hsmall ⊢
    refine ⟨⟨nanosOf m q, nanosOf_le_limit hm hsmall⟩, isWholeNext_nanosOf m q, ?_⟩
    rw [if_neg hplus]
    exact dif_pos (nanosOf_le_limit hm hsmall)

end Duration

namespace Stage

variable {x : Float} {v : ℚ}

/-- **The period of a timer.**  Up to half a nanosecond, and from `2 ^ 64` seconds on, there is
none. -/
theorem period?_by_value (config : RunConfig) (hx : HasValue x v) :
    (v * 10 ^ 9 ≤ 1 / 2 ∨ 2 ^ 64 ≤ v → period? config x = none)
      ∧ (1 / 2 < v * 10 ^ 9 → v < 2 ^ 64 → ∃ d : Duration, IsWholeNext (v * 10 ^ 9) d.nanos
          ∧ period? config x = some (d.max config.minPeriod)) := by
  obtain ⟨hnone, hsome⟩ := Duration.ofSeconds?_by_value hx
  constructor
  · intro hout
    rcases lt_or_ge v 0 with hneg | hnonneg
    · rw [period?, hnone (.inl hneg)]
    · rcases lt_or_ge v (2 ^ 64) with hlt | hlarge
      · obtain ⟨d, hd, hseconds⟩ := hsome hnonneg hlt
        have hsmall : v * 10 ^ 9 ≤ 1 / 2 := hout.resolve_right (not_le.mpr hlt)
        have hzero : d = .zero := Duration.ext ((hd.eq_zero_iff (by positivity)).mpr hsmall)
        rw [period?, hseconds]
        exact if_pos hzero
      · rw [period?, hnone (.inr hlarge)]
  · intro hsmall hlt
    have hnonneg : 0 ≤ v := by linarith
    obtain ⟨d, hd, hseconds⟩ := hsome hnonneg hlt
    have hne : d.nanos ≠ 0 := by
      rw [Ne, hd.eq_zero_iff (by positivity)]
      exact not_le.mpr hsmall
    refine ⟨d, hd, ?_⟩
    rw [period?, hseconds]
    exact if_neg fun hzero => hne (congrArg Duration.nanos hzero)

/-! ## 2. Timers -/

variable {s : Stage} {line : Nat} {c : Command}

/-- A period that is none is reported. -/
theorem run_every_of_none (h : period? s.scene.config x = none) :
    s.run ⟨line, .on (.every x) c⟩
      = .ok ((s.log (.command line "every")).log
          (.reported (.ofError ⟨.timerPeriod x, line⟩))) := by
  rw [run_eq]
  simp only [exec, log_scene, h]
  rfl

/-- A timer with a period is the last of the timers. -/
theorem run_every_of_some {period due : Duration} (h : period? s.scene.config x = some period)
    (hdue : due.nanos = s.scene.timers.clock.nanos + period.nanos) :
    s.run ⟨line, .on (.every x) c⟩
      = .ok (((s.log (.command line "every")).withScene (s.scene.withTimers
          { s.scene.timers with
            timers := s.scene.timers.timers ++ [⟨s.scene.timers.nextId, period, due, ⟨line, c⟩⟩]
            nextId := s.scene.timers.nextId + 1 })).log
          (.timerRegistered line s.scene.timers.nextId period)) := by
  rw [run_eq]
  simp only [exec, log_scene, h, Timers.register, Duration.add?_eq_some_iff.mpr hdue]
  rfl

/-- **A timer is registered by its period in nanoseconds.**  If its number of seconds is rounded to
nothing, or is `2 ^ 64` or more, the timer is refused with one report, and the scene stays as it
was.  With any other number nothing is reported, and the scene has one timer more, for the command
behind it: its period is the number in nanoseconds, rounded to the nearest and raised to the
shortest period, if the end of the first period is still a duration. -/
theorem run_every_by_value (s : Stage) (line : Nat) (c : Command) (hx : HasValue x v) :
    (v * 10 ^ 9 ≤ 1 / 2 ∨ 2 ^ 64 ≤ v → ∃ s', s.run ⟨line, .on (.every x) c⟩ = .ok s'
        ∧ s'.scene = s.scene
        ∧ s'.journal.diagnostics.toList
          = s.journal.diagnostics.toList ++ [.ofError ⟨.timerPeriod x, line⟩])
      ∧ (1 / 2 < v * 10 ^ 9 → v < 2 ^ 64 → ∃ d : Duration, IsWholeNext (v * 10 ^ 9) d.nanos
        ∧ let period := d.max s.scene.config.minPeriod
          (∀ due : Duration, due.nanos = s.scene.timers.clock.nanos + period.nanos →
            ∃ s', s.run ⟨line, .on (.every x) c⟩ = .ok s'
              ∧ s'.scene = s.scene.withTimers { s.scene.timers with
                  timers := s.scene.timers.timers ++ [⟨s.scene.timers.nextId, period, due,
                    ⟨line, c⟩⟩]
                  nextId := s.scene.timers.nextId + 1 }
              ∧ s'.journal.diagnostics = s.journal.diagnostics)) := by
  obtain ⟨hnone, hsome⟩ := period?_by_value s.scene.config hx
  constructor
  · intro hout
    refine ⟨_, run_every_of_none (hnone hout), rfl, ?_⟩
    simp [log, Journal.record]
  · intro hlow hhigh
    obtain ⟨d, hd, hperiod⟩ := hsome hlow hhigh
    exact ⟨d, hd, fun due hdue => ⟨_, run_every_of_some hperiod hdue, rfl, rfl⟩⟩

/-- A thousandth of a second is raised to four. -/
theorem run_every_by_value_thousandth :
    let x := Token.numberValue "0.001".toList
    ∃ s', (initial (.seeded 0)).run ⟨1, .on (.every x) (.act (.say "tick"))⟩ = .ok s'
      ∧ s'.scene.timers.timers = [⟨0, .ofMillis 4, .ofMillis 4, ⟨1, .act (.say "tick")⟩⟩]
      ∧ s'.journal.diagnostics = #[] := by
  intro x
  have hfinite : Decimal.Binary.ofFloat x = .finite false 4611686018427388 (-62) := by
    decide +kernel
  have hx : HasValue x (4611686018427388 * 2 ^ (-62 : Int)) :=
    ⟨false, 4611686018427388, -62, hfinite, by norm_num⟩
  obtain ⟨d, ⟨hnear, -⟩, hrun⟩ :=
    (run_every_by_value (initial (.seeded 0)) 1 (.act (.say "tick")) hx).2
      (by norm_num) (by norm_num)
  have hd : d.nanos ≤ 4000000 := by
    obtain ⟨hlow, -⟩ := abs_le.mp hnear
    have hle : (d.nanos : ℚ) ≤ 4000000 := by
      norm_num at hlow
      linarith
    exact_mod_cast hle
  have hperiod : d.max (initial (.seeded 0)).scene.config.minPeriod = .ofMillis 4 := if_pos hd
  rw [hperiod] at hrun
  obtain ⟨s', hs', hscene, hdiagnostics⟩ := hrun (.ofMillis 4) rfl
  refine ⟨s', hs', ?_, hdiagnostics⟩
  rw [hscene]
  rfl

/-- **A positive period is refused**: a tenth of a nanosecond. -/
theorem positive_period_is_refused :
    let x := Token.numberValue "0.0000000001".toList
    ∃ v, HasValue x v ∧ 0 < v ∧ v < 2 ^ 64
      ∧ ∃ s', (initial (.seeded 0)).run ⟨1, .on (.every x) (.act (.say "tick"))⟩ = .ok s'
        ∧ s'.scene.timers.timers = []
        ∧ s'.journal.diagnostics.toList.map Diagnostic.code = [some .timerPeriod] := by
  intro x
  have hfinite : Decimal.Binary.ofFloat x = .finite false 7737125245533627 (-86) := by
    decide +kernel
  have hx : HasValue x (7737125245533627 * 2 ^ (-86 : Int)) :=
    ⟨false, 7737125245533627, -86, hfinite, by norm_num⟩
  have hnone : period? (initial (.seeded 0)).scene.config x = none :=
    (period?_by_value _ hx).1 (.inl (by norm_num))
  exact ⟨_, hx, by norm_num, by norm_num, _, run_every_of_none hnone, rfl, rfl⟩

end Stage
end StageScript

/-
# The shortest digits lie in the interval

What the search returns lies in the interval of the value (`shortest_near`), since it takes a
candidate for no other reason, and it always finds one: on the grid of seventeen digits the nearer
neighbour of the value is less far away than a quarter of its last binary digit (`onGrid?_ne_none`).
-/
import StageScript.Decimal.Shortest
import StageScript.Proofs.Decimal.Nearest

namespace StageScript
namespace Decimal

/-! ## 1. Decimals -/

namespace Scaled

/-- What a decimal denotes. -/
def value (d : Scaled) : ℚ := d.digits * 10 ^ d.exponent

theorem value_strip (fuel : Nat) (d : Scaled) : (d.strip fuel).value = d.value := by
  induction fuel generalizing d with
  | zero => rfl
  | succ fuel ih =>
    rw [strip]
    split
    · rename_i hzero
      have hten : d.digits = 10 * (d.digits / 10) := by omega
      rw [ih, value, value, zpow_add_one₀ (by norm_num)]
      conv_rhs => rw [hten]
      push_cast
      ring
    · rfl

end Scaled

/-- A factor and a unit of powers of ten multiply by one power of ten. -/
theorem cast_pow_div_pow (e : Int) :
    ((Nat.pow 10 e.toNat : Nat) : ℚ) / (Nat.pow 10 (-e).toNat : Nat) = 10 ^ e := by
  obtain ⟨k, rfl | rfl⟩ := e.eq_nat_or_neg <;> simp

/-! ## 2. The interval -/

variable {f : Format} {m : Nat} {q : Int}

/-- The unit of an interval's grid is a quarter of the last binary digit. -/
theorem cast_shiftLeft_one_div (q : Int) :
    ((1 <<< (q - 2).toNat : Nat) : ℚ) / (1 <<< (2 - q).toNat : Nat) = 2 ^ q / 4 := by
  have h := cast_shiftLeft_div 1 1 (2 - q)
  rw [neg_sub] at h
  rw [h, zpow_sub₀ two_ne_zero]
  norm_num

theorem den_around (f : Format) (m : Nat) (q : Int) :
    (Interval.around f m q).den = 1 <<< (2 - q).toNat := rfl

theorem den_around_pos (f : Format) (m : Nat) (q : Int) :
    (0 : ℚ) < (Interval.around f m q).den := by
  rw [den_around, Nat.shiftLeft_eq]
  positivity

theorem value_around (f : Format) (m : Nat) (q : Int) :
    ((Interval.around f m q).value : ℚ) / (Interval.around f m q).den = m * 2 ^ q := by
  have h : ((Interval.around f m q).value : ℚ) = 4 * m * (1 <<< (q - 2).toNat : Nat) := by
    simp [Interval.around]
  rw [h, den_around, mul_div_assoc, cast_shiftLeft_one_div]
  ring

theorem low_around (hm : 0 < m) : ((Interval.around f m q).low : ℚ) / (Interval.around f m q).den
    = (m - f.below m) * 2 ^ q := by
  have h : ((Interval.around f m q).low : ℚ)
      = (4 * m - 4 * f.below m) * (1 <<< (q - 2).toNat : Nat) := by
    simp only [Interval.around, Format.below]
    rw [Nat.cast_mul, Nat.cast_sub (by split_ifs <;> omega)]
    split_ifs <;> norm_num
  rw [h, den_around, mul_div_assoc, cast_shiftLeft_one_div]
  ring

theorem high_around (f : Format) (m : Nat) (q : Int) :
    ((Interval.around f m q).high : ℚ) / (Interval.around f m q).den = (m + 1 / 2) * 2 ^ q := by
  have h : ((Interval.around f m q).high : ℚ) = (4 * m + 2) * (1 <<< (q - 2).toNat : Nat) := by
    simp [Interval.around]
  rw [h, den_around, mul_div_assoc, cast_shiftLeft_one_div]
  ring

/-- The test of the search is the interval that rounds to the value. -/
theorem holds_around_iff (hm : 0 < m) {factor num : Nat} (hfactor : 0 < factor) :
    (Interval.around f m q).holds factor num = true
      ↔ f.Near m q (num / ((Interval.around f m q).den * factor)) := by
  have hunit : (0 : ℚ) < 2 ^ q := zpow_pos two_pos q
  have hden := den_around_pos f m q
  have hfactor : (0 : ℚ) < factor := by exact_mod_cast hfactor
  have hscale : (0 : ℚ) < (Interval.around f m q).den * factor := mul_pos hden hfactor
  -- an end of the interval on its own grid and in the unit of the value
  have hend {a : Nat} {c : ℚ} (ha : (a : ℚ) / (Interval.around f m q).den = c * 2 ^ q) :
      (a * factor ≤ num ↔ c ≤ num / ((Interval.around f m q).den * factor) / 2 ^ q)
        ∧ (num ≤ a * factor ↔ num / ((Interval.around f m q).den * factor) / 2 ^ q ≤ c) := by
    have ha : ((a * factor : Nat) : ℚ) = c * 2 ^ q * ((Interval.around f m q).den * factor) := by
      rw [← ha, Nat.cast_mul]
      field_simp
    constructor
    · rw [le_div_iff₀ hunit, le_div_iff₀ hscale, ← ha, Nat.cast_le]
    · rw [div_le_iff₀ hunit, div_le_iff₀ hscale, ← ha, Nat.cast_le]
  obtain ⟨hlow, hlow'⟩ := hend (low_around (f := f) (q := q) hm)
  obtain ⟨hhigh, hhigh'⟩ := hend (high_around f m q)
  have hclosed : (Interval.around f m q).closed = (m % 2 == 0) := rfl
  unfold Interval.holds
  rw [hclosed]
  cases heven : m % 2 == 0 with
  | true =>
    have heven : m % 2 = 0 := by simpa using heven
    rw [if_pos rfl, Bool.and_eq_true, decide_eq_true_iff, decide_eq_true_iff, hlow, hhigh']
    exact ⟨fun h => ⟨h.1, h.2, fun hodd => by omega⟩, fun h => ⟨h.low, h.high⟩⟩
  | false =>
    have hodd : m % 2 = 1 := by
      have : m % 2 ≠ 0 := by simpa using heven
      omega
    rw [if_neg (by simp), Bool.and_eq_true, decide_eq_true_iff, decide_eq_true_iff,
      ← not_le, ← not_le, hlow', hhigh, not_le, not_le]
    exact ⟨fun h => ⟨h.1.le, h.2.le, fun _ => ⟨h.1.ne, h.2.ne⟩⟩,
      fun h => ⟨h.low.lt_of_ne (h.inside hodd).1, h.high.lt_of_ne (h.inside hodd).2⟩⟩

/-! ## 3. The grid -/

theorem holds_grid_iff (hm : 0 < m) (c : Nat) (e : Int) :
    (Interval.around f m q).holds (Nat.pow 10 (-e).toNat)
        (c * ((Interval.around f m q).den * Nat.pow 10 e.toNat)) = true
      ↔ f.Near m q (c * 10 ^ e) := by
  have hden := (den_around_pos f m q).ne'
  have hfactor : 0 < Nat.pow 10 (-e).toNat := Nat.pow_pos (by decide)
  rw [holds_around_iff hm hfactor, ← cast_pow_div_pow e]
  have hvalue : ((c * ((Interval.around f m q).den * Nat.pow 10 e.toNat) : Nat) : ℚ)
      / ((Interval.around f m q).den * (Nat.pow 10 (-e).toNat : Nat))
      = c * ((Nat.pow 10 e.toNat : Nat) / (Nat.pow 10 (-e).toNat : Nat)) := by
    rw [Nat.cast_mul, Nat.cast_mul]
    field_simp
  rw [hvalue]

/-- The value in units of the grid. -/
theorem cast_scaled_div (f : Format) (m : Nat) (q e : Int) :
    (((Interval.around f m q).value * Nat.pow 10 (-e).toNat : Nat) : ℚ)
        / ((Interval.around f m q).den * Nat.pow 10 e.toNat : Nat)
      = m * 2 ^ q / 10 ^ e := by
  rw [← value_around f m q, ← cast_pow_div_pow e, Nat.cast_mul, Nat.cast_mul]
  field_simp

/-- The candidates are the two neighbours of the value. -/
theorem floor_scaled (f : Format) (m : Nat) (q e : Int) :
    let c := (Interval.around f m q).value * Nat.pow 10 (-e).toNat
      / ((Interval.around f m q).den * Nat.pow 10 e.toNat)
    (c : ℚ) * 10 ^ e ≤ m * 2 ^ q ∧ (m : ℚ) * 2 ^ q < (c + 1) * 10 ^ e := by
  intro c
  have hunit : 0 < (Interval.around f m q).den * Nat.pow 10 e.toNat :=
    Nat.mul_pos (by exact_mod_cast den_around_pos f m q) (Nat.pow_pos (by decide))
  have hpow : (0 : ℚ) < 10 ^ e := zpow_pos (by norm_num) e
  have hsplit := cast_div_eq_add ((Interval.around f m q).value * Nat.pow 10 (-e).toNat) hunit
  rw [cast_scaled_div] at hsplit
  have hpart := Nat.mod_lt ((Interval.around f m q).value * Nat.pow 10 (-e).toNat) hunit
  rw [← le_div_iff₀ hpow, ← div_lt_iff₀ hpow, hsplit]
  have hunit : (0 : ℚ) < ((Interval.around f m q).den * Nat.pow 10 e.toNat : Nat) := by
    exact_mod_cast hunit
  constructor
  · exact le_add_of_nonneg_right (by positivity)
  · refine add_lt_add_right ?_ _
    rw [div_lt_one hunit]
    exact_mod_cast hpart

/-- A candidate is in the interval. -/
theorem near_of_onGrid? (hm : 0 < m) {e : Int} {d : Scaled}
    (h : onGrid? (Interval.around f m q) e = some d) : f.Near m q d.value := by
  unfold onGrid? at h
  simp only at h
  split at h
  · simp at h
  · rename_i hlow _
    obtain rfl := Option.some.inj h
    exact (holds_grid_iff hm _ e).mp hlow
  · rename_i _ hhigh
    obtain rfl := Option.some.inj h
    exact (holds_grid_iff hm _ e).mp hhigh
  · rename_i hlow hhigh
    split at h
    · obtain rfl := Option.some.inj h
      exact (holds_grid_iff hm _ e).mp hlow
    · obtain rfl := Option.some.inj h
      exact (holds_grid_iff hm _ e).mp hhigh

/-- What is less far from a double than a part of `2 · 10 ^ 16` of it is in its interval. -/
theorem near_of_abs_le (hm : Format.double.Magnitude m q) {x : ℚ}
    (h : |x - m * 2 ^ q| ≤ m * 2 ^ q / (2 * 10 ^ 16)) : Format.double.Near m q x := by
  have hunit : (0 : ℚ) < 2 ^ q := zpow_pos two_pos q
  have hsmall : (m : ℚ) < 9007199254740992 := by exact_mod_cast (magnitude_double_iff.mp hm).1
  have hdist : |x / 2 ^ q - m| ≤ m / (2 * 10 ^ 16) := by
    have hsplit : x / 2 ^ q - m = (x - m * 2 ^ q) / 2 ^ q := by
      field_simp
    rw [hsplit, abs_div, abs_of_pos hunit, div_le_iff₀ hunit]
    linarith
  obtain ⟨hlow, hhigh⟩ := abs_le.mp hdist
  have hbelow : (m : ℚ) / (2 * 10 ^ 16) < Format.double.below m := by
    unfold Format.below
    split_ifs with hpow
    · have hpow : (m : ℚ) = 2 ^ 52 := by exact_mod_cast hpow
      rw [hpow]
      norm_num
    · norm_num
      linarith
  have habove := hbelow.trans_le (Format.below_le .double m)
  exact ⟨by linarith, by linarith, fun _ => ⟨by linarith, by linarith⟩⟩

/-- On a grid of seventeen digits there is a candidate. -/
theorem onGrid?_ne_none (hm : Format.double.Magnitude m q) (hpos : 0 < m) {e : Int}
    (he : (10 : ℚ) ^ e ≤ m * 2 ^ q / 10 ^ 16) :
    onGrid? (Interval.around .double m q) e ≠ none := by
  intro hnone
  unfold onGrid? at hnone
  simp only at hnone
  split at hnone
  · rename_i hlow hhigh
    rw [← Bool.not_eq_true, holds_grid_iff hpos] at hlow hhigh
    obtain ⟨hle, hlt⟩ := floor_scaled .double m q e
    generalize (Interval.around .double m q).value * Nat.pow 10 (-e).toNat
      / ((Interval.around .double m q).den * Nat.pow 10 e.toNat) = c at *
    push_cast at hhigh
    have hpow : (0 : ℚ) < 10 ^ e := zpow_pos (by norm_num) e
    -- one of the two neighbours is at most half a unit away
    by_cases hhalf : (m : ℚ) * 2 ^ q - c * 10 ^ e ≤ 10 ^ e / 2
    · exact hlow (near_of_abs_le hm (abs_le.mpr ⟨by linarith, by linarith⟩))
    · exact hhigh (near_of_abs_le hm (abs_le.mpr ⟨by linarith, by linarith⟩))
  · simp at hnone
  · simp at hnone
  · split at hnone <;> simp at hnone

/-! ## 4. The search -/

theorem ten_pow_le_of_length {n k : Nat} (hn : 0 < n) (hk : (Nat.toDigits 10 n).length = k + 1) :
    10 ^ k ≤ n := by
  obtain rfl | hpos := k.eq_zero_or_pos
  · exact hn
  · have hlong : ¬ (Nat.toDigits 10 n).length ≤ k := by omega
    exact Nat.not_lt.mp (mt (Nat.length_toDigits_le_iff (by decide) hpos).mpr hlong)

/-- The digits before the point, or the zeros behind it, bound a quotient from below. -/
theorem ten_pow_pointPosition_le {num den : Nat} (hnum : 0 < num) (hden : 0 < den) :
    (10 : ℚ) ^ (pointPosition num den - 1) ≤ num / den := by
  have hden' : (0 : ℚ) < den := by exact_mod_cast hden
  unfold pointPosition
  split_ifs with hle
  · obtain ⟨k, hk⟩ := Nat.exists_eq_add_one.mpr
      (Nat.length_toDigits_pos (b := 10) (n := num / den))
    have hpow := ten_pow_le_of_length (Nat.div_pos hle hden) hk
    rw [hk, Nat.cast_add_one, add_sub_cancel_right, zpow_natCast, le_div_iff₀ hden']
    exact_mod_cast (Nat.le_div_iff_mul_le hden).mp hpow
  · have hlen := (Nat.length_toDigits_le_iff (n := (den - 1) / num) (b := 10) (by decide)
      Nat.length_toDigits_pos).mp le_rfl
    generalize (Nat.toDigits 10 ((den - 1) / num)).length = k at *
    rw [Nat.div_lt_iff_lt_mul hnum] at hlen
    rw [sub_sub_cancel_left, zpow_neg, zpow_natCast, inv_le_comm₀ (by positivity) (by positivity),
      inv_div, div_le_iff₀ (by positivity)]
    exact_mod_cast (show den ≤ 10 ^ k * num by omega)

/-- **The shortest digits lie in the interval of the value.** -/
theorem shortest_near (hm : Format.double.Magnitude m q) (hpos : 0 < m) :
    Format.double.Near m q (shortest .double m q).value := by
  unfold shortest
  simp only
  split
  · rename_i d hfind
    obtain ⟨n, -, hgrid⟩ := List.exists_of_findSome?_eq_some hfind
    rw [Scaled.value_strip]
    exact near_of_onGrid? hpos hgrid
  · rename_i hnone
    rw [List.findSome?_eq_none_iff] at hnone
    -- the last grid of the search has seventeen digits
    have hden : 0 < (Interval.around .double m q).den := by
      exact_mod_cast den_around_pos .double m q
    have hvalue : 0 < (Interval.around .double m q).value := by
      have hpos : (0 : ℚ) < m * 2 ^ q := mul_pos (by exact_mod_cast hpos) (zpow_pos two_pos q)
      rw [← value_around .double m q] at hpos
      exact_mod_cast (div_pos_iff_of_pos_right (den_around_pos .double m q)).mp hpos
    have hpoint := ten_pow_pointPosition_le hvalue hden
    rw [value_around] at hpoint
    refine absurd (hnone 16 (by decide)) (onGrid?_ne_none hm hpos ?_)
    rw [le_div_iff₀ (by positivity), ← zpow_natCast, ← zpow_add₀ (by norm_num)]
    exact hpoint.trans' (le_of_eq (by congr 1; push_cast; ring))

end Decimal
end StageScript

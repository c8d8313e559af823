/-
# Rounding is to the nearest

`Format.nearest` rounds a quotient once, to a whole number of units, where the unit is chosen by
the size of the quotient.  That this gives the nearest of all numbers of the format, and of two
equally near ones the even one, is the content of this file (`Format.IsNearest`).

In units of the chosen scale the numbers of this scale and of greater ones are whole, so a whole
number at a distance of at most one half is as near as any of them.  Those of smaller scales lie
below the least number with all its digits; the quotient lies above it, and this number is whole
as well.

For doubles the sum is `IsRounding`: below the middle between the greatest double and the next
power of two a decimal is read as the nearest double, and from there on as infinity.
-/
import StageScript.Proofs.Decimal.RoundTrip

namespace StageScript
namespace Decimal

/-! ## 1. The nearest whole number -/

variable {num den : Nat}

/-- What is as near to `x` as `m` is, in the whole or beyond a whole number. -/
theorem abs_sub_le_of_half {x y : ℚ} {m : Nat} (hhalf : |x - m| ≤ 1 / 2)
    (htie : |x - m| = 1 / 2 → m % 2 = 0) (hy : (∃ n : Nat, y = n) ∨ ∃ n : Nat, y < n ∧ n ≤ x) :
    |x - m| ≤ |x - y| ∧ (|x - m| = |x - y| → (m : ℚ) ≠ y → m % 2 = 0) := by
  have hwhole : ∀ n : Nat, n ≠ m → 1 / 2 ≤ |x - n| := by
    intro n hne
    have hgap : (1 : ℚ) ≤ |(n : ℚ) - m| := by
      have : (1 : Int) ≤ |(n : Int) - m| := Int.one_le_abs (by omega)
      exact_mod_cast this
    have htriangle := abs_sub_le (n : ℚ) x m
    rw [abs_sub_comm (n : ℚ) x] at htriangle
    linarith
  rcases hy with ⟨n, rfl⟩ | ⟨n, hyn, hnx⟩
  · by_cases hne : n = m
    · subst hne
      exact ⟨le_rfl, fun _ hne => absurd rfl hne⟩
    · have hfar := hwhole n hne
      refine ⟨hhalf.trans hfar, fun heq _ => htie ?_⟩
      linarith
  · have hlt : |x - n| < |x - y| := by
      rw [abs_of_nonneg (by linarith), abs_of_nonneg (by linarith)]
      linarith
    have hle : |x - m| ≤ |x - n| := by
      by_cases hne : n = m
      · rw [hne]
      · exact hhalf.trans (hwhole n hne)
    exact ⟨(hle.trans_lt hlt).le, fun heq => absurd heq (hle.trans_lt hlt).ne⟩

/-! ## 2. The nearest number of a format -/

variable {f : Format} {v : ℚ} {m : Nat} {q : Int}

/-- No number of the format is nearer to `v` than `m · 2 ^ q`, and if another one is as near then
`m` is even. -/
structure Format.IsNearest (f : Format) (v : ℚ) (m : Nat) (q : Int) : Prop where
  magnitude : f.Magnitude m q
  nearest : ∀ m' q', f.Magnitude m' q' → |v - m * 2 ^ q| ≤ |v - m' * 2 ^ q'|
  even : ∀ m' q', f.Magnitude m' q' → |v - m * 2 ^ q| = |v - m' * 2 ^ q'| →
    (m : ℚ) * 2 ^ q ≠ m' * 2 ^ q' → m % 2 = 0

theorem two_zpow_pos (q : Int) : (0 : ℚ) < 2 ^ q := zpow_pos two_pos q

/-- A distance in units of `2 ^ q`. -/
theorem abs_sub_mul_zpow (v a : ℚ) (q : Int) : |v - a * 2 ^ q| = |v / 2 ^ q - a| * 2 ^ q := by
  have hunit := two_zpow_pos q
  rw [← abs_of_pos hunit, ← abs_mul, abs_of_pos hunit, sub_mul, div_mul_cancel₀ _ hunit.ne']

/-- A number of the format, in units of a scale: whole, or below all numbers of this scale that
have all their digits. -/
theorem Format.Magnitude.in_units {m' : Nat} {q' : Int} (h : f.Magnitude m' q') (q : Int) :
    ∃ y : ℚ, (m' : ℚ) * 2 ^ q' = y * 2 ^ q
      ∧ ((∃ n : Nat, y = n) ∨ f.leastScale < q ∧ y < 2 ^ (f.fractionBits : Int)) := by
  have hsplit : (m' : ℚ) * 2 ^ q' = m' * 2 ^ (q' - q) * 2 ^ q := by
    rw [mul_assoc, ← zpow_add₀ two_ne_zero, sub_add_cancel]
  refine ⟨_, hsplit, ?_⟩
  rcases le_or_gt q q' with hle | hlt
  · obtain ⟨k, hk⟩ := Int.eq_ofNat_of_zero_le (show 0 ≤ q' - q by omega)
    refine .inl ⟨m' * 2 ^ k, ?_⟩
    rw [hk, zpow_natCast]
    push_cast
    rfl
  · refine .inr ⟨by have := h.least; omega, ?_⟩
    have hsmall : (m' : ℚ) < 2 ^ ((f.fractionBits : Int) + 1) := by
      have := h.small
      rw [Nat.shiftLeft_eq, one_mul, ← pow_succ'] at this
      exact_mod_cast this
    have hunit : (2 : ℚ) ^ (q' - q) ≤ 2 ^ (-1 : Int) :=
      zpow_le_zpow_right₀ one_le_two (by omega)
    calc (m' : ℚ) * 2 ^ (q' - q) ≤ m' * 2 ^ (-1 : Int) := by gcongr
      _ < 2 ^ ((f.fractionBits : Int) + 1) * 2 ^ (-1 : Int) := by gcongr
      _ = 2 ^ (f.fractionBits : Int) := by
        rw [← zpow_add₀ two_ne_zero]
        congr 1
        omega

/-- **A whole number of units at most one half away is as near as any number of the format**, if
the quotient has all its digits above the units, or the units are the smallest. -/
theorem abs_sub_le_of_units (hhalf : |v / 2 ^ q - m| ≤ 1 / 2)
    (htie : |v / 2 ^ q - m| = 1 / 2 → m % 2 = 0)
    (hsize : q = f.leastScale ∨ (2 : ℚ) ^ (f.fractionBits : Int) ≤ v / 2 ^ q) {m' : Nat} {q' : Int}
    (h : f.Magnitude m' q') :
    |v - m * 2 ^ q| ≤ |v - m' * 2 ^ q'|
      ∧ (|v - m * 2 ^ q| = |v - m' * 2 ^ q'| → (m : ℚ) * 2 ^ q ≠ m' * 2 ^ q' → m % 2 = 0) := by
  have hunit := two_zpow_pos q
  obtain ⟨y, hy, hplace⟩ := h.in_units q
  have hplace : (∃ n : Nat, y = n) ∨ ∃ n : Nat, y < n ∧ n ≤ v / 2 ^ q := by
    rcases hplace with hwhole | ⟨hleast, hlt⟩
    · exact .inl hwhole
    · refine .inr ⟨1 <<< f.fractionBits, ?_, ?_⟩
      · rwa [cast_one_shiftLeft]
      · rw [cast_one_shiftLeft]
        exact hsize.resolve_left (by omega)
  obtain ⟨hle, heven⟩ := abs_sub_le_of_half hhalf htie hplace
  rw [hy, abs_sub_mul_zpow, abs_sub_mul_zpow]
  refine ⟨mul_le_mul_of_nonneg_right hle hunit.le, fun heq hne => heven ?_ ?_⟩
  · exact mul_right_cancel₀ hunit.ne' heq
  · rintro rfl
    exact hne rfl

/-- Nothing is nearer to what lies below half of the smallest number than zero. -/
theorem isNearest_zero (hpos : 0 ≤ v) (hsmall : 2 * v < 2 ^ f.leastScale)
    (hf : 0 < f.infinity) : f.IsNearest v 0 f.leastScale := by
  have hunit := two_zpow_pos f.leastScale
  have hvalue : v / 2 ^ f.leastScale < 1 / 2 := by
    rw [div_lt_iff₀ hunit]
    linarith
  have hdistance : |v / 2 ^ f.leastScale - (0 : Nat)| < 1 / 2 := by
    rw [Nat.cast_zero, sub_zero, abs_of_nonneg (by positivity)]
    exact hvalue
  have hunits {m' : Nat} {q' : Int} (h : f.Magnitude m' q') :=
    abs_sub_le_of_units (v := v) hdistance.le (fun htie => absurd htie hdistance.ne) (.inl rfl) h
  refine ⟨⟨?_, le_rfl, .inl rfl, ?_⟩, fun m' q' h => (hunits h).1, fun m' q' h => (hunits h).2⟩
  · rw [Nat.shiftLeft_eq]
    positivity
  · rwa [Format.magnitudeBits, sub_self, Int.toNat_zero, Nat.zero_shiftLeft]

/-! ## 3. Rounding finds it -/

/-- How far the units are from the quotient, and how large the quotient is in units. -/
theorem units_spec (f : Format) (hnum : 0 < num) (hden : 0 < den) :
    |(num : ℚ) / den / 2 ^ f.unit (num / den) - f.units num den| ≤ 1 / 2
      ∧ (|(num : ℚ) / den / 2 ^ f.unit (num / den) - f.units num den| = 1 / 2 →
          f.units num den % 2 = 0)
      ∧ (f.unit (num / den) = f.leastScale
          ∨ (2 : ℚ) ^ (f.fractionBits : Int) ≤ num / den / 2 ^ f.unit (num / den))
      ∧ (num : ℚ) / den / 2 ^ f.unit (num / den) < 2 ^ ((f.fractionBits : Int) + 1) := by
  have hv : (0 : ℚ) < num / den := by positivity
  obtain ⟨hhalf, htie⟩ := abs_sub_roundHalfEven_le (num <<< (-f.unit (num / den)).toNat)
    (shiftLeft_pos hden (f.unit (num / den)).toNat)
  rw [cast_shiftLeft_div] at hhalf htie
  refine ⟨hhalf, htie, ?_, ?_⟩
  · rw [zpow_le_div_iff hv]
    unfold Format.unit
    omega
  · rw [← not_le, zpow_le_div_iff hv]
    unfold Format.unit
    omega

/-- **A quotient is rounded to the nearest number**, unless that is beyond all of them. -/
theorem exists_isNearest (hnum : 0 < num) (hden : 0 < den) (hf : 0 < f.fractionBits)
    (hbelow : f.magnitudeBits (f.units num den) (f.unit (num / den)) < f.infinity) :
    ∃ m q, f.IsNearest (num / den) m q ∧ f.nearest num den = f.magnitudeBits m q := by
  obtain ⟨hhalf, htie, hsize, hsmall⟩ := units_spec f hnum hden
  have hbits := nearest_eq_units f hnum hden
  rw [min_eq_right hbelow.le] at hbits
  have hleast : f.leastScale ≤ f.unit (num / den) := le_max_right _ _
  generalize f.units num den = m at *
  generalize f.unit (num / den) = q at *
  have hunits {m' : Nat} {q' : Int} (h : f.Magnitude m' q') :=
    abs_sub_le_of_units hhalf htie hsize h
  -- the units have at most one digit more than the format, and then they are a power of two
  have htop : m ≤ 2 * 1 <<< f.fractionBits := by
    have hpow : (2 : ℚ) ^ ((f.fractionBits : Int) + 1) = (2 * 1 <<< f.fractionBits : Nat) := by
      rw [Nat.cast_mul, cast_one_shiftLeft, zpow_add₀ two_ne_zero, zpow_one, mul_comm]
      norm_num
    rw [hpow] at hsmall
    have hlt : (m : ℚ) < (2 * 1 <<< f.fractionBits : Nat) + 1 := by
      have := (abs_le.mp hhalf).1
      linarith
    exact Nat.lt_succ_iff.mp (by exact_mod_cast hlt)
  rcases htop.lt_or_eq with hdigits | hfull
  · have hnormal : q = f.leastScale ∨ 1 <<< f.fractionBits ≤ m := by
      refine hsize.imp_right fun hsize => ?_
      have hlt : ((1 <<< f.fractionBits : Nat) : ℚ) < m + 1 := by
        have := (abs_le.mp hhalf).2
        rw [cast_one_shiftLeft]
        linarith
      exact Nat.lt_succ_iff.mp (by exact_mod_cast hlt)
    exact ⟨m, q, ⟨⟨hdigits, hleast, hnormal, hbelow⟩, fun m' q' h => (hunits h).1,
      fun m' q' h => (hunits h).2⟩, hbits⟩
  · have hvalue : ((1 <<< f.fractionBits : Nat) : ℚ) * 2 ^ (q + 1) = m * 2 ^ q := by
      rw [hfull, zpow_add₀ two_ne_zero, zpow_one]
      push_cast
      ring
    rw [hfull, magnitudeBits_carry hleast] at hbits hbelow
    refine ⟨1 <<< f.fractionBits, q + 1, ⟨⟨?_, by omega, .inr le_rfl, hbelow⟩,
      fun m' q' h => ?_, fun m' q' h heq hne => ?_⟩, hbits⟩
    · have := shiftLeft_pos Nat.one_pos f.fractionBits
      omega
    · rw [hvalue]
      exact (hunits h).1
    · obtain ⟨k, hk⟩ := Nat.exists_eq_succ_of_ne_zero hf.ne'
      rw [hk, Nat.shiftLeft_eq, one_mul, pow_succ]
      exact Nat.mul_mod_left _ 2

/-! ## 4. Doubles -/

/-- The middle between the greatest double, `(2 ^ 53 - 1) · 2 ^ 971`, and the next power of two. -/
def overflowBound : ℚ := (2 ^ 53 - 1 / 2) * 2 ^ (971 : Int)

/-- The double that a number that is not negative is rounded to: the nearest one, of two equally
near ones the one with an even mantissa, and infinity beyond the middle between the greatest
double and the next power of two. -/
def IsRounding (v : ℚ) (x : Float) : Prop :=
  (v < overflowBound ∧ ∃ m q, Binary.ofFloat x = .finite false m q ∧ Format.double.IsNearest v m q)
    ∨ overflowBound ≤ v ∧ Binary.ofFloat x = .infinite false

/-- At the greatest scale, the units have a digit too many from the bound on. -/
theorem units_lt_iff {x : ℚ} (hhalf : |x - m| ≤ 1 / 2) (htie : |x - m| = 1 / 2 → m % 2 = 0) :
    m < 2 ^ 53 ↔ x < 2 ^ 53 - 1 / 2 := by
  obtain ⟨hlow, hhigh⟩ := abs_le.mp hhalf
  constructor
  · intro hm
    have hm : (m : ℚ) ≤ 2 ^ 53 - 1 := by
      have : m + 1 ≤ 2 ^ 53 := hm
      have : (m : ℚ) + 1 ≤ 2 ^ 53 := by exact_mod_cast this
      linarith
    by_contra hx
    -- then the number lies in the middle, above an odd number
    have htop : (m : ℚ) = 2 ^ 53 - 1 := by linarith
    have heven : m % 2 = 0 := by
      refine htie ?_
      rw [abs_of_nonneg (by linarith)]
      linarith
    have hodd : m = 2 ^ 53 - 1 := by
      have : (m : ℚ) + 1 = (2 ^ 53 : Nat) := by
        rw [htop]
        norm_num
      have : m + 1 = 2 ^ 53 := by exact_mod_cast this
      omega
    omega
  · intro hx
    have : (m : ℚ) < (2 ^ 53 : Nat) := by
      push_cast
      linarith
    exact_mod_cast this

/-- At a smaller scale than the greatest one, everything lies below the bound. -/
theorem lt_overflowBound_of_scale {x : ℚ} (hx : x < 2 ^ 53) (hq : q < 971) :
    x * 2 ^ q < overflowBound := by
  have hpow : (2 : ℚ) ^ q ≤ 2 ^ (971 : Int) / 2 := by
    rw [le_div_iff₀ two_pos, ← zpow_add_one₀ two_ne_zero]
    exact zpow_le_zpow_right₀ one_le_two (by omega)
  calc x * 2 ^ q < 2 ^ 53 * 2 ^ q := mul_lt_mul_of_pos_right hx (two_zpow_pos q)
    _ ≤ 2 ^ 53 * (2 ^ (971 : Int) / 2) := by gcongr
    _ ≤ overflowBound := by
      rw [overflowBound, ← mul_div_assoc, mul_div_right_comm]
      exact mul_le_mul_of_nonneg_right (by norm_num) (two_zpow_pos 971).le

/-- At a greater scale, what has all its digits lies beyond the bound. -/
theorem overflowBound_le_of_scale {x : ℚ} (hx : 2 ^ (52 : Int) ≤ x) (hq : 971 < q) :
    overflowBound ≤ x * 2 ^ q := by
  have hpow : 2 * (2 : ℚ) ^ (971 : Int) ≤ 2 ^ q := by
    rw [mul_comm, ← zpow_add_one₀ two_ne_zero]
    exact zpow_le_zpow_right₀ one_le_two (by omega)
  calc overflowBound ≤ 2 ^ (52 : Int) * (2 * (2 : ℚ) ^ (971 : Int)) := by
        rw [overflowBound, ← mul_assoc]
        exact mul_le_mul_of_nonneg_right (by norm_num) (two_zpow_pos 971).le
    _ ≤ x * 2 ^ q := by gcongr

/-- **What is rounded to more than the greatest double lies beyond the bound**, and only that. -/
theorem units_lt_infinity_iff (hnum : 0 < num) (hden : 0 < den) :
    Format.double.magnitudeBits (Format.double.units num den) (Format.double.unit (num / den))
      < Format.double.infinity ↔ (num : ℚ) / den < overflowBound := by
  obtain ⟨hhalf, htie, hsize, hsmall⟩ := units_spec .double hnum hden
  have hleast : (-1074 : Int) ≤ Format.double.unit (num / den) :=
    leastScale_double ▸ le_max_right _ _
  have hbits : ((Format.double.fractionBits : Nat) : Int) = 52 := rfl
  rw [hbits, leastScale_double] at hsize
  rw [hbits] at hsmall
  rw [magnitudeBits_double, infinity_double]
  generalize Format.double.units num den = m at *
  generalize Format.double.unit (num / den) = q at *
  have hv : (num : ℚ) / den = num / den / 2 ^ q * 2 ^ q :=
    (div_mul_cancel₀ _ (two_zpow_pos q).ne').symm
  generalize (num : ℚ) / den / 2 ^ q = x at *
  rw [hv]
  obtain ⟨hlow, hhigh⟩ := abs_le.mp hhalf
  have hsmall : x < 2 ^ 53 := hsmall.trans_eq (by norm_num)
  have hm : m ≤ 2 ^ 53 := by
    have : (m : ℚ) < (2 ^ 53 : Nat) + 1 := by
      push_cast
      linarith
    exact Nat.lt_succ_iff.mp (by exact_mod_cast this)
  -- only at the greatest scale the units decide
  rcases lt_trichotomy q 971 with hq | rfl | hq
  · refine iff_of_true ?_ (lt_overflowBound_of_scale hsmall hq)
    omega
  · rw [overflowBound, mul_lt_mul_iff_left₀ (two_zpow_pos 971), ← units_lt_iff hhalf htie]
    omega
  · have hnormal : (2 : ℚ) ^ (52 : Int) ≤ x := hsize.resolve_left (by omega)
    have hm : 2 ^ 52 ≤ m := by
      have : ((2 ^ 52 : Nat) : ℚ) < m + 1 := by
        norm_num at hnormal ⊢
        linarith
      exact Nat.lt_succ_iff.mp (by exact_mod_cast this)
    refine iff_of_false ?_ (not_lt.mpr (overflowBound_le_of_scale hnormal hq))
    omega

theorem infinity_double_pos : 0 < Format.double.infinity := by
  rw [infinity_double]
  norm_num

/-- What lies below half of the smallest double is rounded to zero. -/
theorem isRounding_zero (hpos : 0 ≤ v) (hsmall : 2 * v < 2 ^ (-1074 : Int)) :
    IsRounding v (Float.ofBits (UInt64.ofNat 0)) := by
  have hnearest : Format.double.IsNearest v 0 Format.double.leastScale :=
    isNearest_zero hpos (by rwa [leastScale_double]) infinity_double_pos
  have hbits : Format.double.magnitudeBits 0 Format.double.leastScale = 0 := by
    rw [Format.magnitudeBits, sub_self, Int.toNat_zero, Nat.zero_shiftLeft]
  have hvalue := ofFloat_ofBits hnearest.magnitude
  rw [hbits] at hvalue
  refine .inl ⟨?_, _, _, hvalue, hnearest⟩
  calc v ≤ 2 * v := by linarith
    _ < 2 ^ (-1074 : Int) := hsmall
    _ ≤ 2 ^ (971 : Int) := zpow_le_zpow_right₀ one_le_two (by omega)
    _ ≤ overflowBound := le_mul_of_one_le_left (two_zpow_pos 971).le (by norm_num)

theorem ofFloat_infinity :
    Binary.ofFloat (Float.ofBits (UInt64.ofNat Format.double.infinity)) = .infinite false := by
  decide +kernel

/-- **A quotient is rounded to the double nearest to it.** -/
theorem isRounding_nearest (num : Nat) (hden : 0 < den) :
    IsRounding (num / den) (Float.ofBits (UInt64.ofNat (Format.double.nearest num den))) := by
  rcases Nat.eq_zero_or_pos num with rfl | hnum
  · have hzero : Format.double.nearest 0 den = 0 := if_pos rfl
    rw [hzero, Nat.cast_zero, zero_div]
    exact isRounding_zero le_rfl (by rw [mul_zero]; exact two_zpow_pos _)
  · have hbound := units_lt_infinity_iff hnum hden
    by_cases hv : (num : ℚ) / den < overflowBound
    · obtain ⟨m, q, hnearest, hbits⟩ := exists_isNearest hnum hden (by decide) (hbound.mpr hv)
      rw [hbits]
      exact .inl ⟨hv, m, q, ofFloat_ofBits hnearest.magnitude, hnearest⟩
    · have hinfinity : Format.double.nearest num den = Format.double.infinity := by
        rw [nearest_eq_units _ hnum hden]
        exact min_eq_left (not_lt.mp (mt hbound.mp hv))
      rw [hinfinity]
      exact .inr ⟨not_lt.mp hv, ofFloat_infinity⟩

/-! ## 5. Decimals -/

/-- The shortcuts of the reader change nothing. -/
theorem isRounding_nearestDecimal (digits k : Nat) :
    IsRounding (digits / 10 ^ k)
      (Float.ofBits (UInt64.ofNat (Format.double.nearestDecimal digits (-k)))) := by
  unfold Format.nearestDecimal
  rw [leastScale_double]
  split_ifs with hzero hlarge hsmall
  · rw [hzero, Nat.cast_zero, zero_div]
    exact isRounding_zero le_rfl (by rw [mul_zero]; exact two_zpow_pos _)
  · omega
  · exact isRounding_zero (by positivity) (two_mul_lt_of_log2 hsmall.2)
  · have hround := isRounding_nearest digits (Nat.pow_pos (n := k) (show 0 < 10 by decide))
    push_cast at hround
    simpa using hround

end Decimal
end StageScript

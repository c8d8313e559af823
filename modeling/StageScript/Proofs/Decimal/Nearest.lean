/-
# The nearest number of a format

`f.Near m q x` says that the quotient `x` lies in the interval of `m · 2 ^ q`: no further from it
than half of the way to the next number on either side, and as far as that only if `m` is even.
Below a power of two the numbers lie half as far apart as above it.

Every quotient in the interval of a number rounds to that number (`nearest_eq_of_near`).  The
rounding takes the scale from the size of the quotient, which is that of the number, except just
below a power of two: there the scale is one less, and the mantissa carries.
-/
import StageScript.Proofs.Decimal.Bits

namespace StageScript
namespace Decimal

/-! ## 1. Shifted quotients -/

/-- A shift of the one or the other side divides a quotient by a power of two. -/
theorem cast_shiftLeft_div (num den : Nat) (e : Int) :
    ((num <<< (-e).toNat : Nat) : ℚ) / (den <<< e.toNat : Nat) = num / den / 2 ^ e := by
  obtain ⟨k, rfl | rfl⟩ := e.eq_nat_or_neg
  · simp [Nat.shiftLeft_eq, div_div]
  · simp [Nat.shiftLeft_eq, mul_div_right_comm]

variable {num den : Nat}

/-- The size of a quotient between those of its sides. -/
theorem log_div_bounds (hnum : 0 < num) (hden : 0 < den) :
    (2 : ℚ) ^ ((num.log2 : Int) - den.log2 - 1) ≤ num / den
      ∧ (num : ℚ) / den < 2 ^ ((num.log2 : Int) - den.log2 + 1) := by
  have hnum₁ : (2 : ℚ) ^ num.log2 ≤ num := by exact_mod_cast Nat.log2_self_le hnum.ne'
  have hnum₂ : (num : ℚ) < 2 ^ (num.log2 + 1) := by exact_mod_cast Nat.lt_log2_self
  have hden₁ : (2 : ℚ) ^ den.log2 ≤ den := by exact_mod_cast Nat.log2_self_le hden.ne'
  have hden₂ : (den : ℚ) < 2 ^ (den.log2 + 1) := by exact_mod_cast Nat.lt_log2_self
  have hden : (0 : ℚ) < den := by exact_mod_cast hden
  constructor
  · have hsplit : (2 : ℚ) ^ ((num.log2 : Int) - den.log2 - 1)
        = 2 ^ num.log2 / 2 ^ (den.log2 + 1) := by
      rw [sub_sub, zpow_sub₀ two_ne_zero]
      norm_cast
    rw [hsplit]
    exact div_le_div₀ (by positivity) hnum₁ hden hden₂.le
  · have hsplit : (2 : ℚ) ^ ((num.log2 : Int) - den.log2 + 1)
        = 2 ^ (num.log2 + 1) / 2 ^ den.log2 := by
      rw [sub_add_eq_add_sub, zpow_sub₀ two_ne_zero]
      norm_cast
    rw [hsplit]
    exact div_lt_div₀ hnum₂ hden₁ (by positivity) (by positivity)

/-- **The logarithm of a quotient.** -/
theorem logQuotient_eq (hnum : 0 < num) (hden : 0 < den) :
    logQuotient num den = Int.log 2 ((num : ℚ) / den) := by
  have hpos : (0 : ℚ) < num / den := by positivity
  obtain ⟨hlow, hhigh⟩ := log_div_bounds hnum hden
  have hlow := (Int.zpow_le_iff_le_log (b := 2) one_lt_two hpos).mp (by rwa [Nat.cast_ofNat])
  have hhigh := (Int.lt_zpow_iff_log_lt (b := 2) one_lt_two hpos).mp (by rwa [Nat.cast_ofNat])
  -- the comparison decides between the two logarithms that are left
  have hcmp (e : Int) : den <<< e.toNat ≤ num <<< (-e).toNat ↔ e ≤ Int.log 2 ((num : ℚ) / den) := by
    rw [← Int.zpow_le_iff_le_log (b := 2) one_lt_two hpos]
    have hside : (0 : ℚ) < (den <<< e.toNat : Nat) := by
      rw [Nat.shiftLeft_eq]
      positivity
    have hpow : (0 : ℚ) < 2 ^ e := zpow_pos two_pos e
    rw [← Nat.cast_le (α := ℚ), ← one_le_div hside, cast_shiftLeft_div, one_le_div hpow]
    norm_cast
  unfold logQuotient
  simp only [hcmp]
  split_ifs <;> omega

/-! ## 2. Rounding to a whole number -/

theorem cast_div_eq_add (num : Nat) (hden : 0 < den) :
    (num : ℚ) / den = (num / den : Nat) + ((num % den : Nat) : ℚ) / den := by
  have hden : (den : ℚ) ≠ 0 := by exact_mod_cast hden.ne'
  rw [div_eq_iff hden, add_mul, div_mul_cancel₀ _ hden]
  exact_mod_cast (Nat.div_add_mod' num den).symm

/-- A quotient is rounded by at most one half, and by one half only to an even number. -/
theorem abs_sub_roundHalfEven_le (num : Nat) (hden : 0 < den) :
    |(num : ℚ) / den - roundHalfEven num den| ≤ 1 / 2
      ∧ (|(num : ℚ) / den - roundHalfEven num den| = 1 / 2 → roundHalfEven num den % 2 = 0) := by
  have hden' : (0 : ℚ) < den := by exact_mod_cast hden
  have hsmall : ((num % den : Nat) : ℚ) / den < 1 := by
    rw [div_lt_one hden']
    exact_mod_cast Nat.mod_lt num hden
  have hpos : (0 : ℚ) ≤ ((num % den : Nat) : ℚ) / den := by positivity
  have hlt : 2 * (num % den) < den ↔ ((num % den : Nat) : ℚ) / den < 1 / 2 := by
    rw [div_lt_div_iff₀ hden' two_pos, one_mul, mul_comm]
    norm_cast
  have heq : 2 * (num % den) = den ↔ ((num % den : Nat) : ℚ) / den = 1 / 2 := by
    rw [div_eq_div_iff hden'.ne' two_ne_zero, one_mul, mul_comm]
    norm_cast
  rw [cast_div_eq_add num hden]
  unfold roundHalfEven
  simp only [hlt, heq]
  generalize ((num % den : Nat) : ℚ) / den = part at *
  generalize num / den = below at *
  split_ifs with hbelow
  · rw [add_sub_cancel_left, abs_of_nonneg hpos]
    rcases hbelow with hpart | ⟨hpart, heven⟩
    · exact ⟨hpart.le, fun heq => absurd heq hpart.ne⟩
    · exact ⟨hpart.le, fun _ => heven⟩
  · have hhalf : 1 / 2 ≤ part := by
      by_contra hno
      exact hbelow (.inl (not_le.mp hno))
    push_cast
    rw [add_sub_add_left_eq_sub, abs_of_nonpos (by linarith)]
    refine ⟨by linarith, fun htie => ?_⟩
    have hpart : part = 1 / 2 := by linarith
    have hodd : below % 2 ≠ 0 := fun heven => hbelow (.inr ⟨hpart, heven⟩)
    omega

/-- **A quotient rounds to the whole number next to it**, and from the middle to an even one. -/
theorem roundHalfEven_eq {m : Nat} (hden : 0 < den) (hlow : (m : ℚ) - 1 / 2 ≤ num / den)
    (hhigh : (num : ℚ) / den ≤ m + 1 / 2)
    (hodd : m % 2 = 1 → (m : ℚ) - 1 / 2 ≠ num / den ∧ (num : ℚ) / den ≠ m + 1 / 2) :
    roundHalfEven num den = m := by
  obtain ⟨hhalf, htie⟩ := abs_sub_roundHalfEven_le num hden
  obtain ⟨hbelow, habove⟩ := abs_le.mp hhalf
  generalize (num : ℚ) / den = x at *
  generalize roundHalfEven num den = r at *
  -- two whole numbers that are both so near are next to each other, with the quotient between
  rcases lt_trichotomy r m with hlt | heq | hlt
  · have hnext : (r : ℚ) + 1 ≤ m := by exact_mod_cast hlt
    have hx : x = r + 1 / 2 := by linarith
    have heven : r % 2 = 0 := htie (by rw [hx, add_sub_cancel_left]; norm_num)
    have hrm : r + 1 = m := by
      have : (m : ℚ) ≤ r + 1 := by linarith
      exact le_antisymm hlt (by exact_mod_cast this)
    have hm : (m : ℚ) = r + 1 := by exact_mod_cast hrm.symm
    exact absurd (by rw [hm, hx]; ring) (hodd (by omega)).1
  · exact heq
  · have hnext : (m : ℚ) + 1 ≤ r := by exact_mod_cast hlt
    have hx : x = r - 1 / 2 := by linarith
    have heven : r % 2 = 0 := by
      refine htie ?_
      rw [hx, sub_sub_cancel_left, abs_neg]
      norm_num
    have hrm : m + 1 = r := by
      have : (r : ℚ) ≤ m + 1 := by linarith
      exact le_antisymm hlt (by exact_mod_cast this)
    have hr : (r : ℚ) = m + 1 := by exact_mod_cast hrm.symm
    exact absurd (by rw [hx, hr]; ring) (hodd (by omega)).2

/-! ## 3. Rounding to a number of a format -/

variable {f : Format} {m : Nat} {q : Int}

/-- How far the interval of a number reaches below it, in units of its last digit. -/
def Format.below (f : Format) (m : Nat) : ℚ := if m = 1 <<< f.fractionBits then 1 / 4 else 1 / 2

theorem Format.below_le (f : Format) (m : Nat) : f.below m ≤ 1 / 2 := by
  unfold below
  split_ifs <;> norm_num

/-- The quotient lies in the interval of `m · 2 ^ q`, whose ends belong to it if `m` is even. -/
structure Format.Near (f : Format) (m : Nat) (q : Int) (x : ℚ) : Prop where
  low : m - f.below m ≤ x / 2 ^ q
  high : x / 2 ^ q ≤ m + 1 / 2
  inside : m % 2 = 1 → m - f.below m ≠ x / 2 ^ q ∧ x / 2 ^ q ≠ m + 1 / 2

theorem Format.below_pos (f : Format) (m : Nat) : 0 < f.below m := by
  unfold below
  split_ifs <;> norm_num

/-- A number lies in its own interval. -/
theorem near_self (f : Format) (m : Nat) (q : Int) : f.Near m q (m * 2 ^ q) := by
  have hvalue : (m : ℚ) * 2 ^ q / 2 ^ q = m := mul_div_cancel_right₀ _ (zpow_pos two_pos q).ne'
  have hbelow := f.below_pos m
  refine ⟨?_, ?_, fun _ => ⟨?_, ?_⟩⟩ <;> rw [hvalue]
  · linarith
  · linarith
  · exact fun heq => by linarith
  · exact fun heq => by linarith

/-- The scale at which a quotient is rounded. -/
def Format.unit (f : Format) (v : ℚ) : Int := max (Int.log 2 v - f.fractionBits) f.leastScale

/-- The whole number of units that a quotient is rounded to. -/
def Format.units (f : Format) (num den : Nat) : Nat :=
  roundHalfEven (num <<< (-f.unit (num / den)).toNat) (den <<< (f.unit (num / den)).toNat)

theorem nearest_eq_units (f : Format) (hnum : 0 < num) (hden : 0 < den) :
    f.nearest num den
      = min f.infinity (f.magnitudeBits (f.units num den) (f.unit (num / den))) := by
  have hpick : (if Int.log 2 ((num : ℚ) / den) - f.fractionBits < f.leastScale then f.leastScale
      else Int.log 2 ((num : ℚ) / den) - f.fractionBits) = f.unit (num / den) := by
    unfold Format.unit
    split_ifs <;> omega
  unfold Format.nearest
  simp only [logQuotient_eq hnum hden, hpick]
  rw [if_neg hnum.ne']
  change (if f.infinity < f.magnitudeBits (f.units num den) (f.unit (num / den)) then f.infinity
    else f.magnitudeBits (f.units num den) (f.unit (num / den))) = _
  split_ifs <;> omega

/-- Rounding takes place at one scale. -/
theorem nearest_eq_of_scale {scale : Int} (hnum : 0 < num) (hden : 0 < den)
    (hscale : f.unit (num / den) = scale)
    (hround : roundHalfEven (num <<< (-scale).toNat) (den <<< scale.toNat) = m)
    (hbelow : f.magnitudeBits m scale ≤ f.infinity) :
    f.nearest num den = f.magnitudeBits m scale := by
  subst hscale hround
  exact (nearest_eq_units f hnum hden).trans (min_eq_right hbelow)

/-- The least number of a scale is twice the least of the scale below. -/
theorem magnitudeBits_carry (hleast : f.leastScale ≤ q) :
    f.magnitudeBits (2 * 1 <<< f.fractionBits) q
      = f.magnitudeBits (1 <<< f.fractionBits) (q + 1) := by
  have hscale : (q + 1 - f.leastScale).toNat = (q - f.leastScale).toNat + 1 := by omega
  simp only [Format.magnitudeBits, Nat.shiftLeft_eq, hscale]
  ring

theorem cast_one_shiftLeft (k : Nat) : ((1 <<< k : Nat) : ℚ) = 2 ^ (k : Int) := by
  rw [Nat.shiftLeft_eq, one_mul, zpow_natCast, Nat.cast_pow, Nat.cast_ofNat]

/-- The powers of two around a quotient, in units of `2 ^ q`. -/
theorem zpow_le_div_iff {x : ℚ} (hx : 0 < x) (q k : Int) :
    (2 : ℚ) ^ k ≤ x / 2 ^ q ↔ q + k ≤ Int.log 2 x := by
  rw [le_div_iff₀ (zpow_pos two_pos q), ← zpow_add₀ two_ne_zero, add_comm k,
    ← Int.zpow_le_iff_le_log (b := 2) one_lt_two hx, Nat.cast_ofNat]

theorem Format.Near.quotient_pos {x : ℚ} (h : f.Near m q x) (hpos : 0 < m) : 0 < x := by
  have hhalf := f.below_le m
  have hone : (1 : ℚ) ≤ m := by exact_mod_cast hpos
  have hlow := h.low
  have hy : 0 < x / 2 ^ q := by linarith
  exact (div_pos_iff_of_pos_right (zpow_pos two_pos q)).mp hy

/-- A number has no more digits than its format. -/
theorem Format.Near.log_lt {x : ℚ} (h : f.Near m q x) (hm : f.Magnitude m q) (hx : 0 < x) :
    Int.log 2 x < q + ((f.fractionBits : Int) + 1) := by
  have hsmall : (m : ℚ) + 1 ≤ 2 * 2 ^ f.fractionBits := by
    have := hm.small
    rw [Nat.shiftLeft_eq, one_mul] at this
    exact_mod_cast this
  have hhigh := h.high
  rw [← not_le, ← zpow_le_div_iff hx, not_le, zpow_add₀ two_ne_zero, zpow_natCast, zpow_one]
  linarith

theorem shiftLeft_pos (hden : 0 < den) (k : Nat) : 0 < den <<< k := by
  rw [Nat.shiftLeft_eq]
  exact Nat.mul_pos hden (Nat.two_pow_pos _)

/-- Just below a power of two the unit is half as large, and the mantissa carries. -/
theorem nearest_eq_of_carry (hm : f.Magnitude (1 <<< f.fractionBits) q) (hnum : 0 < num)
    (hden : 0 < den) (h : f.Near (1 <<< f.fractionBits) q (num / den)) (hleast : f.leastScale < q)
    (hsmall : (num : ℚ) / den / 2 ^ q < 2 ^ (f.fractionBits : Int)) :
    f.nearest num den = f.magnitudeBits (1 <<< f.fractionBits) q := by
  have hx : (0 : ℚ) < num / den := by positivity
  have hbits := magnitudeBits_carry (f := f) (show f.leastScale ≤ q - 1 by omega)
  rw [sub_add_cancel] at hbits
  have hquarter : f.below (1 <<< f.fractionBits) = 1 / 4 := if_pos rfl
  have hdouble : (num : ℚ) / den / 2 ^ (q - 1) = 2 * (num / den / 2 ^ q) := by
    rw [zpow_sub₀ two_ne_zero, zpow_one]
    ring
  have hlow := h.low
  have hfull := cast_one_shiftLeft f.fractionBits
  rw [← hbits]
  refine nearest_eq_of_scale hnum hden ?_ ?_ (hbits ▸ hm.below.le)
  · have hone : (1 : ℚ) ≤ 2 ^ (f.fractionBits : Int) := one_le_zpow₀ one_le_two (by omega)
    have hlog : (2 : ℚ) ^ ((f.fractionBits : Int) - 1) ≤ num / den / 2 ^ q := by
      rw [zpow_sub₀ two_ne_zero, zpow_one]
      linarith
    rw [← not_le, zpow_le_div_iff hx] at hsmall
    rw [zpow_le_div_iff hx] at hlog
    unfold Format.unit
    omega
  · refine roundHalfEven_eq (shiftLeft_pos hden _) ?_ ?_ fun hodd => absurd hodd (by omega)
    all_goals
      rw [cast_shiftLeft_div, hdouble]
      push_cast
      linarith

/-- At the least scale, and from the number's own power of two on, the unit is that of the
number. -/
theorem nearest_eq_of_full (hm : f.Magnitude m q) (hnum : 0 < num) (hden : 0 < den)
    (h : f.Near m q (num / den))
    (hsize : q = f.leastScale ∨ (2 : ℚ) ^ (f.fractionBits : Int) ≤ num / den / 2 ^ q) :
    f.nearest num den = f.magnitudeBits m q := by
  have hx : (0 : ℚ) < num / den := by positivity
  refine nearest_eq_of_scale hnum hden ?_ ?_ hm.below.le
  · have htop := h.log_lt hm hx
    have hleast := hm.least
    rw [zpow_le_div_iff hx] at hsize
    unfold Format.unit
    omega
  · have hhalf := f.below_le m
    have hlow := h.low
    refine roundHalfEven_eq (shiftLeft_pos hden _) ?_ ?_ fun hodd => ?_
    all_goals rw [cast_shiftLeft_div]
    · linarith
    · exact h.high
    · obtain ⟨hends, hhigh⟩ := h.inside hodd
      refine ⟨fun heq => hends ?_, hhigh⟩
      have hle : 1 / 2 ≤ f.below m := by linarith
      rw [← heq, hhalf.antisymm hle]

/-- **Every quotient in the interval of a number rounds to that number.** -/
theorem nearest_eq_of_near (hm : f.Magnitude m q) (hpos : 0 < m) (hden : 0 < den)
    (h : f.Near m q (num / den)) : f.nearest num den = f.magnitudeBits m q := by
  have hnum : 0 < num := by
    have hx := h.quotient_pos hpos
    by_contra hzero
    obtain rfl : num = 0 := by omega
    simp at hx
  by_cases hcarry : m = 1 <<< f.fractionBits ∧ f.leastScale < q
      ∧ (num : ℚ) / den / 2 ^ q < 2 ^ (f.fractionBits : Int)
  · obtain ⟨rfl, hleast, hsmall⟩ := hcarry
    exact nearest_eq_of_carry hm hnum hden h hleast hsmall
  · refine nearest_eq_of_full hm hnum hden h ?_
    obtain hleast | hnormal := hm.normal
    · exact .inl hleast
    obtain heq | hlt := hnormal.eq_or_lt
    · have := hm.least
      by_contra hno
      rw [not_or, not_le] at hno
      exact hcarry ⟨heq.symm, by omega, hno.2⟩
    · have hlt : ((1 <<< f.fractionBits : Nat) : ℚ) + 1 ≤ m := by exact_mod_cast hlt
      have hhalf := f.below_le m
      have hlow := h.low
      rw [cast_one_shiftLeft] at hlt
      exact .inr (by linarith)

end Decimal
end StageScript

/-
# What is written is read back

The plain layout of a finite double is a sign and a numeral: digits with at most one point, which
has digits on both sides.  The numeral denotes a decimal in the interval of the magnitude, so the
nearest double is the one that was written (`exists_numeral`).

Whole numbers of at most 53 bits are doubles themselves; their digits are read as these.
-/
import StageScript.Decimal.Layout
import StageScript.Decimal.Reading
import StageScript.Proofs.Decimal.Shortest

namespace StageScript

/-- A run of characters and what follows it. -/
theorem Text.span_append {p : Char → Bool} {run rest : List Char} (hrun : ∀ c ∈ run, p c = true)
    (hrest : rest.head?.any p = false) :
    (run ++ rest).takeWhile p = run ∧ (run ++ rest).dropWhile p = rest := by
  rw [List.takeWhile_append_of_pos hrun, List.dropWhile_append_of_pos hrun]
  cases rest with
  | nil => simp
  | cons c cs =>
    have hc : p c = false := by simpa using hrest
    simp [hc]

namespace Decimal

/-! ## 1. Numerals -/

/-- Digits with at most one point, which has digits on both sides. -/
structure Numeral where
  whole : List Char
  fraction : List Char
  whole_ne_nil : whole ≠ []
  isDigit_whole : ∀ c ∈ whole, c.isDigit = true
  isDigit_fraction : ∀ c ∈ fraction, c.isDigit = true

namespace Numeral

variable (n : Numeral)

/-- The point and what is behind it. -/
def tail : List Char := if n.fraction = [] then [] else '.' :: n.fraction

/-- The characters of a numeral. -/
def chars : List Char := n.whole ++ n.tail

/-- What a numeral denotes. -/
def value : ℚ := natOfDigits (n.whole ++ n.fraction) / 10 ^ n.fraction.length

/-- The double that a numeral is read as. -/
def nearest : Float := ofDigits n.whole n.fraction

theorem head?_tail_any : n.tail.head?.any Char.isDigit = false := by
  unfold tail
  split_ifs <;> rfl

/-- A numeral is read as the double nearest to it. -/
theorem read?_chars : read? n.chars = some n.nearest := by
  obtain ⟨htake, hdrop⟩ := Text.span_append n.isDigit_whole n.head?_tail_any
  unfold read? chars
  simp only [htake, hdrop]
  by_cases hempty : n.fraction = []
  · simp [tail, nearest, hempty, n.whole_ne_nil]
  · have hall : n.fraction.all Char.isDigit = true := List.all_eq_true.mpr n.isDigit_fraction
    simp [tail, nearest, hempty, hall]

/-- Digits alone are a numeral. -/
def ofNat (k : Nat) : Numeral where
  whole := digitChars k
  fraction := []
  whole_ne_nil := Nat.toDigits_ne_nil
  isDigit_whole _ hc := Nat.isDigit_of_mem_toDigits (by decide) (by decide) hc
  isDigit_fraction _ hc := absurd hc List.not_mem_nil

theorem chars_ofNat (k : Nat) : (ofNat k).chars = digitChars k := by
  simp [chars, tail, ofNat]

theorem natOfDigits_digitChars (k : Nat) : natOfDigits (digitChars k) = k :=
  Nat.ofDigitChars_ten_toDigits

theorem value_ofNat (k : Nat) : (ofNat k).value = k := by
  simp [value, ofNat, natOfDigits_digitChars]

end Numeral

/-! ## 2. The positional layout -/

theorem natOfDigits_zeros_append (k : Nat) (ds : List Char) :
    natOfDigits (zeros k ++ ds) = natOfDigits ds := by
  have h := Nat.ofDigitChars_append (b := 10) (l := zeros k) (m := ds) 0
  rwa [zeros, Nat.ofDigitChars_replicate_zero, Nat.mul_zero] at h

theorem natOfDigits_append_zeros (k : Nat) (ds : List Char) :
    natOfDigits (ds ++ zeros k) = natOfDigits ds * 10 ^ k := by
  have h := Nat.ofDigitChars_append (b := 10) (l := ds) (m := zeros k) 0
  rwa [zeros, Nat.ofDigitChars_replicate_zero, Nat.mul_comm] at h

theorem isDigit_of_mem_zeros {k : Nat} {c : Char} (h : c ∈ zeros k) : c.isDigit = true := by
  rw [List.eq_of_mem_replicate h]
  rfl

theorem isDigit_of_mem_digitChars {k : Nat} {c : Char} (h : c ∈ digitChars k) :
    c.isDigit = true :=
  Nat.isDigit_of_mem_toDigits (by decide) (by decide) h

variable {ds : List Char} {k p z : Nat} {digits : Nat}

/-- Zeros behind the digits. -/
theorem positional_natCast (digits k : Nat) :
    positional ⟨digits, k⟩ 0 = digitChars digits ++ zeros k := by
  simp [positional, zeros]

/-- The point among the digits. -/
theorem positional_of_point (hp : 0 < p) (hk : 0 < k) (hlen : (digitChars digits).length = p + k) :
    positional ⟨digits, -k⟩ 0
      = (digitChars digits).take p ++ '.' :: (digitChars digits).drop p := by
  have hpoint : ((digitChars digits).length : Int) + -(k : Int) = p := by omega
  have hneg : ¬ -(k : Int) ≥ 0 := by omega
  have hpos : (p : Int) > 0 := by omega
  have hdrop : (digitChars digits).drop p ≠ [] := by
    rw [ne_eq, List.drop_eq_nil_iff]
    omega
  simp only [positional, hpoint, if_neg hneg, if_pos hpos, Int.toNat_natCast]
  simp [zeros, hdrop]

/-- Zeros between the point and the digits. -/
theorem positional_of_small (hlen : (digitChars digits).length + z = k) :
    positional ⟨digits, -k⟩ 0 = '0' :: '.' :: (zeros z ++ digitChars digits) := by
  have hne : 0 < (digitChars digits).length := Nat.length_toDigits_pos
  have hpoint : ((digitChars digits).length : Int) + -(k : Int) = -z := by omega
  have hneg : ¬ -(k : Int) ≥ 0 := by omega
  have hsmall : ¬ -(z : Int) > 0 := by omega
  simp only [positional, hpoint, if_neg hneg, if_neg hsmall, neg_neg, Int.toNat_natCast]
  simp [zeros, List.ne_nil_of_length_pos hne]

/-- **The positional layout is a numeral that denotes its decimal.** -/
theorem exists_numeral_positional (d : Scaled) :
    ∃ n : Numeral, n.chars = positional d 0 ∧ n.value = d.value := by
  obtain ⟨digits, exponent⟩ := d
  have hne : digitChars digits ≠ [] := Nat.toDigits_ne_nil
  have hdigits {c : Char} (hc : c ∈ digitChars digits) := isDigit_of_mem_digitChars hc
  obtain ⟨k, rfl | rfl⟩ := exponent.eq_nat_or_neg
  · refine ⟨⟨digitChars digits ++ zeros k, [], by simp [hne], ?_, by simp⟩, ?_, ?_⟩
    · exact fun c hc => (List.mem_append.mp hc).elim hdigits isDigit_of_mem_zeros
    · simp [Numeral.chars, Numeral.tail, positional_natCast]
    · simp [Numeral.value, Scaled.value, natOfDigits_append_zeros, Numeral.natOfDigits_digitChars]
  obtain rfl | hk := k.eq_zero_or_pos
  · refine ⟨.ofNat digits, ?_, ?_⟩
    · simpa [Numeral.chars_ofNat, zeros] using (positional_natCast digits 0).symm
    · simp [Numeral.value_ofNat, Scaled.value]
  by_cases hlt : k < (digitChars digits).length
  · obtain ⟨p, hp⟩ := Nat.exists_eq_add_of_le' hlt.le
    have hppos : 0 < p := by omega
    refine ⟨⟨(digitChars digits).take p, (digitChars digits).drop p, ?_, ?_, ?_⟩, ?_, ?_⟩
    · simp [hne, hppos.ne']
    · exact fun c hc => hdigits (List.mem_of_mem_take hc)
    · exact fun c hc => hdigits (List.mem_of_mem_drop hc)
    · have hdrop : ¬ (digitChars digits).length ≤ p := by omega
      simp [Numeral.chars, Numeral.tail, positional_of_point hppos hk hp, hdrop]
    · simp [Numeral.value, Scaled.value, Numeral.natOfDigits_digitChars, hp, div_eq_mul_inv]
  · obtain ⟨z, hz⟩ := Nat.exists_eq_add_of_le (Nat.not_lt.mp hlt)
    refine ⟨⟨['0'], zeros z ++ digitChars digits, by simp, by simp, ?_⟩, ?_, ?_⟩
    · exact fun c hc => (List.mem_append.mp hc).elim isDigit_of_mem_zeros hdigits
    · simp [Numeral.chars, Numeral.tail, positional_of_small hz.symm, hne]
    · have hzero : natOfDigits ('0' :: (zeros z ++ digitChars digits)) = digits := by
        rw [← List.cons_append]
        exact (natOfDigits_zeros_append (z + 1) _).trans (Numeral.natOfDigits_digitChars digits)
      have hlen : (zeros z ++ digitChars digits).length = k := by
        simp [zeros, hz, Nat.add_comm]
      simp only [Numeral.value, Scaled.value, List.cons_append, List.nil_append, hzero, hlen,
        zpow_neg, zpow_natCast, div_eq_mul_inv]

/-! ## 3. Reading a numeral -/

variable {m : Nat} {q : Int}

/-- A decimal whose digits are too few for its exponent lies below half of the smallest double. -/
theorem two_mul_lt_of_log2 {digits k : Nat}
    (hsmall : (digits.log2 : Int) + 1 + 3 * -(k : Int) < -1074) :
    2 * ((digits : ℚ) / 10 ^ k) < 2 ^ (-1074 : Int) := by
  have hdigits : (digits : ℚ) < 2 ^ (digits.log2 + 1) := by exact_mod_cast Nat.lt_log2_self
  have height : (2 : ℚ) ^ (3 * k) ≤ 10 ^ k := by
    rw [pow_mul]
    exact pow_le_pow_left₀ (by norm_num) (by norm_num) k
  have hlt : (digits : ℚ) / 10 ^ k < 2 ^ (digits.log2 + 1) / 2 ^ (3 * k) :=
    div_lt_div₀ hdigits height (by positivity) (by positivity)
  have hpow : (2 : ℚ) ^ (digits.log2 + 1) / 2 ^ (3 * k) ≤ 2 ^ (-1074 - 1 : Int) := by
    rw [← zpow_natCast, ← zpow_natCast, ← zpow_sub₀ two_ne_zero]
    refine zpow_le_zpow_right₀ one_le_two ?_
    push_cast
    omega
  rw [zpow_sub_one₀ two_ne_zero] at hpow
  linarith

/-- The shortcuts of the reader concern no decimal in the interval of a number. -/
theorem nearestDecimal_eq_nearest (hm : Format.double.Magnitude m q) (hpos : 0 < m)
    {digits k : Nat} (h : Format.double.Near m q (digits / 10 ^ k)) :
    Format.double.nearestDecimal digits (-k)
      = Format.double.nearest digits (10 ^ k) := by
  have hunit : (0 : ℚ) < 2 ^ q := zpow_pos two_pos q
  have hhalf : (1 / 2 : ℚ) ≤ digits / 10 ^ k / 2 ^ q := by
    have hone : (1 : ℚ) ≤ m := by exact_mod_cast hpos
    have := h.low
    have := Format.below_le .double m
    linarith
  have hnonzero : digits ≠ 0 := by
    rintro rfl
    norm_num at hhalf
  -- the decimal is not below half of the smallest number
  have hleast : (2 : ℚ) ^ (-1074 : Int) ≤ 2 * (digits / 10 ^ k) := by
    have hq : (2 : ℚ) ^ (-1074 : Int) ≤ 2 ^ q :=
      zpow_le_zpow_right₀ one_le_two (magnitude_double_iff.mp hm).2.1
    rw [le_div_iff₀ hunit] at hhalf
    linarith
  have hlog : ¬ (-(k : Int) < 0 ∧ (digits.log2 : Int) + 1 + 3 * -(k : Int) < -1074) := by
    rintro ⟨-, hsmall⟩
    exact absurd (two_mul_lt_of_log2 hsmall) (not_lt.mpr hleast)
  unfold Format.nearestDecimal
  rw [leastScale_double, if_neg hnonzero, if_neg (by omega), if_neg hlog, Int.toNat_neg_natCast,
    neg_neg, Int.toNat_natCast]
  exact congrArg₂ Format.double.nearest (Nat.mul_one digits) rfl

/-- **A numeral in the interval of a number is read as that number.** -/
theorem Numeral.nearest_eq (hm : Format.double.Magnitude m q) (hpos : 0 < m) {n : Numeral}
    (h : Format.double.Near m q n.value) :
    n.nearest = Float.ofBits (UInt64.ofNat (Format.double.magnitudeBits m q)) := by
  have hten : 0 < 10 ^ n.fraction.length := Nat.pow_pos (by decide)
  unfold nearest ofDigits
  rw [nearestDecimal_eq_nearest hm hpos h, nearest_eq_of_near hm hpos hten]
  rwa [Nat.cast_pow, Nat.cast_ofNat]

/-! ## 4. The plain layout -/

/-- A magnitude is written as a numeral that is read as the number. -/
theorem exists_numeral_magnitude (hm : Format.double.Magnitude m q) :
    ∃ n : Numeral, n.chars = plainMagnitude .double m q
      ∧ n.nearest = Float.ofBits (UInt64.ofNat (Format.double.magnitudeBits m q)) := by
  obtain rfl | hpos := m.eq_zero_or_pos
  · refine ⟨.ofNat 0, rfl, ?_⟩
    obtain hleast | hnormal := hm.normal
    · subst hleast
      rfl
    · exact absurd hnormal (by decide)
  · obtain ⟨n, hchars, hvalue⟩ := exists_numeral_positional (shortest .double m q)
    refine ⟨n, ?_, n.nearest_eq hm hpos (hvalue ▸ shortest_near hm hpos)⟩
    rw [hchars, plainMagnitude, if_neg hpos.ne']

/-- **A finite double is written as a sign and a numeral, and the numeral is read as its
magnitude.** -/
theorem exists_numeral {x : Float} {negative : Bool}
    (hx : Binary.ofFloat x = .finite negative m q) :
    ∃ n : Numeral, (plain x).toList = signChars negative ++ n.chars
      ∧ n.nearest = if negative then -x else x := by
  have hm := (ofFloat_eq_finite_iff.mp hx).1
  obtain ⟨n, hchars, hnearest⟩ := exists_numeral_magnitude hm
  refine ⟨n, ?_, ?_⟩
  · simp [plain, hx, Binary.write, hchars]
  · rw [hnearest]
    cases negative with
    | false => exact eq_of_ofFloat (ofFloat_ofBits hm) hx
    | true => exact eq_of_ofFloat (ofFloat_ofBits hm) (ofFloat_neg hx)

/-! ## 5. Whole numbers -/

/-- A whole number of at most 53 bits is a double. -/
theorem exists_magnitude_of_le {k : Nat} (hpos : 0 < k) (hk : k ≤ 2 ^ 53) :
    ∃ m q, Format.double.Magnitude m q ∧ (m : ℚ) * 2 ^ q = k := by
  obtain rfl | hlt := hk.eq_or_lt
  · refine ⟨2 ^ 52, 1, magnitude_double_iff.mpr (by decide), ?_⟩
    norm_num
  · have hlog : k.log2 < 53 := (Nat.log2_lt hpos.ne').mpr hlt
    obtain ⟨j, hj⟩ := Nat.exists_eq_add_of_le (Nat.lt_succ_iff.mp hlog)
    have hle : 2 ^ 52 ≤ k * 2 ^ j := by
      rw [hj, pow_add]
      exact Nat.mul_le_mul_right _ (Nat.log2_self_le hpos.ne')
    have hsmall : k * 2 ^ j < 2 ^ 53 := by
      have hsplit : (2 : Nat) ^ 53 = 2 ^ (k.log2 + 1) * 2 ^ j := by
        rw [← pow_add]
        congr 1
        omega
      rw [hsplit]
      exact Nat.mul_lt_mul_of_pos_right Nat.lt_log2_self (Nat.two_pow_pos j)
    refine ⟨k * 2 ^ j, -j, magnitude_double_iff.mpr ⟨hsmall, by omega, .inr hle, by omega⟩, ?_⟩
    rw [Nat.cast_mul, Nat.cast_pow, Nat.cast_ofNat, zpow_neg, zpow_natCast, mul_assoc,
      mul_inv_cancel₀ (by positivity), mul_one]

/-- What a whole value is as a 64-bit integer. -/
theorem isWhole_and_toInt64 (negative : Bool) {k : Nat} (hk : k ≤ 2 ^ 53)
    (h : (m : ℚ) * 2 ^ q = k) :
    (Binary.finite negative m q).isWhole = true
      ∧ ((Binary.finite negative m q).toInt64).toInt = if negative then -(k : Int) else k := by
  have hone : (0 : ℚ) < (1 <<< (-q).toNat : Nat) := by
    rw [Nat.shiftLeft_eq]
    positivity
  have hshift : m <<< q.toNat = k * 1 <<< (-q).toNat := by
    have hquot := cast_shiftLeft_div m 1 (-q)
    rw [neg_neg, Nat.cast_one, div_one, zpow_neg, div_inv_eq_mul, h, div_eq_iff hone.ne'] at hquot
    exact_mod_cast hquot
  constructor
  · rw [Binary.isWhole, Bool.or_eq_true, decide_eq_true_iff, beq_iff_eq]
    by_cases hq : 0 ≤ q
    · exact .inl hq
    · have hzero : q.toNat = 0 := by omega
      rw [hzero, Nat.shiftLeft_zero] at hshift
      exact .inr (hshift ▸ Nat.mul_mod_left ..)
  · have hone : 0 < 1 <<< (-q).toNat := by exact_mod_cast hone
    have hmax : Int64.maxValue.toInt = 9223372036854775807 := by decide
    have hmin : Int64.minValue.toInt = -9223372036854775808 := by decide
    simp only [Binary.toInt64, Binary.quotient, Nat.mul_one, hshift, Nat.mul_div_cancel _ hone,
      hmax, hmin]
    rw [if_neg (by split_ifs <;> omega), if_neg (by split_ifs <;> omega)]
    exact Int64.toInt_ofInt_of_le (by split_ifs <;> omega) (by split_ifs <;> omega)

/-- **The digits of a whole number of at most 53 bits are read as that number.** -/
theorem nearest_ofNat {k : Nat} (hk : k ≤ 2 ^ 53) :
    ∃ m q, Binary.ofFloat (Numeral.ofNat k).nearest = .finite false m q
      ∧ (m : ℚ) * 2 ^ q = k := by
  obtain rfl | hpos := k.eq_zero_or_pos
  · exact ⟨0, -1074, by decide +kernel, by norm_num⟩
  · obtain ⟨m, q, hm, hvalue⟩ := exists_magnitude_of_le hpos hk
    have hmpos : 0 < m := by
      by_contra hzero
      obtain rfl : m = 0 := by omega
      rw [Nat.cast_zero, zero_mul] at hvalue
      exact hpos.ne' (by exact_mod_cast hvalue.symm)
    have hnear : Format.double.Near m q (Numeral.ofNat k).value := by
      rw [Numeral.value_ofNat, ← hvalue]
      exact near_self .double m q
    refine ⟨m, q, ?_, hvalue⟩
    rw [Numeral.nearest_eq hm hmpos hnear]
    exact ofFloat_ofBits hm

end Decimal
end StageScript

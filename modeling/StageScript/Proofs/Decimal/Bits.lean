/-
# The bits of doubles

A pattern of 64 bits is a sign, an exponent and a fraction, and a double is its pattern, but for
the patterns that are no number.  So a finite double is given by what its bits stand for
(`eq_of_ofFloat`): its sign and a magnitude of the format (`Format.Magnitude`).  Negation changes
the sign and nothing else.

The machine's operations are defined by unpacking, computing and packing; all that is used of this
is that packing undoes unpacking (`Float.Model.UnpackedFloat.pack_unpack_of_valid`).
-/
import Mathlib
import StageScript.Decimal.Binary

namespace StageScript
namespace Decimal

open Float.Model.UnpackedFloat
open Float.Model.Format (binary64)

/-! ## 1. The fields of a pattern -/

theorem toNat_unpackExponent (b : BitVec 64) :
    (@unpackExponent binary64 b).toNat = b.toNat / 2 ^ 52 % 2 ^ 11 := by
  simp [unpackExponent, BitVec.extractLsb, Nat.shiftRight_eq_div_pow]

theorem toNat_packComponents (s : Sign) (e : BitVec 11) (m : BitVec 52) :
    (packComponents binary64 s e m).toNat
      = s.toBitVec.toNat * 2 ^ 63 + (e.toNat * 2 ^ 52 + m.toNat) := by
  unfold packComponents
  rw [BitVec.toNat_append, BitVec.toNat_append]
  have he := e.isLt
  have hm := m.isLt
  rw [← Nat.shiftLeft_add_eq_or_of_lt hm, ← Nat.shiftLeft_add_eq_or_of_lt he]
  simp only [Nat.shiftLeft_eq]
  omega

/-- A pattern is its three fields. -/
theorem exists_components (b : BitVec 64) : ∃ s e m, b = packComponents binary64 s e m :=
  ⟨_, _, _, (@packComponents_unpackSign_unpackExponent_unpackMantissa binary64 b).symm⟩

theorem neg_unpack (s : Sign) (e : BitVec 11) (m : BitVec 52) :
    (unpack binary64 (packComponents binary64 s e m)).neg
      = unpack binary64 (packComponents binary64 (-s) e m) := by
  simp only [unpack, unpackMantissa_packComponents, unpackExponent_packComponents,
    unpackSign_packComponents, Sign.ofBitVec_toBitVec]
  split_ifs <;> rfl

/-! ## 2. The bits of a double -/

variable {x y : Float}

/-- The bits of a double, as a number. -/
def bits (x : Float) : Nat := x.toBits.toNat

theorem bits_lt (x : Float) : bits x < 2 ^ 64 := x.toBits.toNat_lt

/-- A double is its bits. -/
theorem eq_of_bits (h : bits x = bits y) : x = y := Float.toBits_inj.mp (UInt64.toNat_inj.mp h)

theorem valid_of_lt {n : Nat} (h : n / 2 ^ 52 % 2 ^ 11 ≠ 2047) :
    binary64.Valid (BitVec.ofNat 64 n) := by
  refine ⟨fun hall => absurd ?_ h⟩
  have hexp := congrArg BitVec.toNat hall
  rw [toNat_unpackExponent, BitVec.toNat_ofNat] at hexp
  have hall : ((-1#11 : BitVec 11)).toNat = 2047 := by decide
  rw [← hall, ← hexp]
  omega

/-- A pattern whose exponent is not the greatest is a double. -/
theorem bits_ofBits {n : Nat} (hn : n < 2 ^ 64) (h : n / 2 ^ 52 % 2 ^ 11 ≠ 2047) :
    bits (Float.ofBits (UInt64.ofNat n)) = n := by
  have hpack := pack_unpack_of_valid (valid_of_lt h)
  have hbits : bits (Float.ofBits (UInt64.ofNat n))
      = (pack binary64 (unpack binary64 (BitVec.ofNat 64 n))).toNat := rfl
  rw [hbits, hpack]
  exact Nat.mod_eq_of_lt hn

theorem bits_neg (h : bits x / 2 ^ 52 % 2 ^ 11 ≠ 2047) :
    bits (-x) = (bits x + 2 ^ 63) % 2 ^ 64 := by
  obtain ⟨s, e, m, hb⟩ := exists_components x.toBits.toBitVec
  have hx : bits x = s.toBitVec.toNat * 2 ^ 63 + (e.toNat * 2 ^ 52 + m.toNat) := by
    rw [← toNat_packComponents, ← hb]
    rfl
  have he : e.toNat < 2 ^ 11 := e.isLt
  have hm : m.toNat < 2 ^ 52 := m.isLt
  have hs : s.toBitVec.toNat < 2 := s.toBitVec.isLt
  have hexp : e.toNat ≠ 2047 := by
    intro he
    rw [hx, he] at h
    omega
  have hneg : bits (-x)
      = (pack binary64 (unpack binary64 x.toBits.toBitVec).neg).toNat := rfl
  have hvalid : binary64.Valid (packComponents binary64 (-s) e m) := by
    refine ⟨fun hall => absurd (congrArg BitVec.toNat hall) ?_⟩
    rwa [unpackExponent_packComponents]
  rw [hneg, hb, neg_unpack, pack_unpack_of_valid hvalid, toNat_packComponents, hx]
  cases s
  · have hminus : (-Sign.negative).toBitVec.toNat = 0 := rfl
    have hplus : Sign.negative.toBitVec.toNat = 1 := rfl
    omega
  · have hminus : (-Sign.positive).toBitVec.toNat = 1 := rfl
    have hplus : Sign.positive.toBitVec.toNat = 0 := rfl
    omega

theorem isFinite_iff_bits : x.isFinite = true ↔ bits x / 2 ^ 52 % 2 ^ 11 ≠ 2047 := by
  have hexp : bits x / 2 ^ 52 % 2 ^ 11
      = (@unpackExponent binary64 x.toBits.toBitVec).toNat :=
    (toNat_unpackExponent x.toBits.toBitVec).symm
  have hfinite : x.isFinite = (unpack binary64 x.toBits.toBitVec).isFinite := rfl
  have hall : @unpackExponent binary64 x.toBits.toBitVec = -1#_
      ↔ bits x / 2 ^ 52 % 2 ^ 11 = 2047 := by
    rw [hexp, ← BitVec.toNat_inj]
    rfl
  rw [hfinite, ne_eq, ← not_congr hall]
  simp only [unpack]
  split_ifs <;> simp_all [Float.Model.UnpackedFloat.isFinite]

/-! ## 3. Magnitudes -/

/-- The bits of a positive number or zero. -/
def Format.magnitudeBits (f : Format) (m : Nat) (q : Int) : Nat :=
  ((q - f.leastScale).toNat <<< f.fractionBits) + m

/-- `m · 2 ^ q` is how the format holds a number: with as many digits as it has, unless the scale
is the least, and below infinity. -/
structure Format.Magnitude (f : Format) (m : Nat) (q : Int) : Prop where
  small : m < 2 * 1 <<< f.fractionBits
  least : f.leastScale ≤ q
  normal : q = f.leastScale ∨ 1 <<< f.fractionBits ≤ m
  below : f.magnitudeBits m q < f.infinity

theorem leastScale_double : Format.double.leastScale = -1074 := by decide

theorem infinity_double : Format.double.infinity = 2047 * 2 ^ 52 := by decide

theorem magnitudeBits_double (m : Nat) (q : Int) :
    Format.double.magnitudeBits m q = (q + 1074).toNat * 2 ^ 52 + m := by
  simp only [Format.magnitudeBits, Nat.shiftLeft_eq, Format.double]
  congr 2

theorem magnitude_double_iff {m : Nat} {q : Int} :
    Format.double.Magnitude m q ↔ m < 2 ^ 53 ∧ -1074 ≤ q ∧ (q = -1074 ∨ 2 ^ 52 ≤ m)
      ∧ (q + 1074).toNat * 2 ^ 52 + m < 2047 * 2 ^ 52 := by
  constructor
  · rintro ⟨hsmall, hleast, hnormal, hbelow⟩
    rw [leastScale_double] at hleast hnormal
    rw [magnitudeBits_double, infinity_double] at hbelow
    exact ⟨hsmall, hleast, hnormal, hbelow⟩
  · rintro ⟨hsmall, hleast, hnormal, hbelow⟩
    refine ⟨hsmall, ?_, ?_, ?_⟩
    · rwa [leastScale_double]
    · rwa [leastScale_double]
    · rwa [magnitudeBits_double, infinity_double]

theorem ofBits_double (n : Nat) :
    Binary.ofBits .double n =
      if n / 2 ^ 52 % 2 ^ 11 = 2047 then
        if n % 2 ^ 52 = 0 then .infinite (n / 2 ^ 63 % 2 == 1) else .nan
      else if n / 2 ^ 52 % 2 ^ 11 = 0 then .finite (n / 2 ^ 63 % 2 == 1) (n % 2 ^ 52) (-1074)
      else
        .finite (n / 2 ^ 63 % 2 == 1) (2 ^ 52 + n % 2 ^ 52)
          (-1074 + (n / 2 ^ 52 % 2 ^ 11 - 1 : Nat)) := by
  simp only [Binary.ofBits, Nat.shiftRight_eq_div_pow, leastScale_double]
  rfl

/-- **What the bits of finite numbers stand for.** -/
theorem ofBits_double_eq_finite_iff {n : Nat} (hn : n < 2 ^ 64) {negative : Bool} {m : Nat}
    {q : Int} : Binary.ofBits .double n = .finite negative m q ↔
      Format.double.Magnitude m q
        ∧ n = (if negative then 2 ^ 63 else 0) + Format.double.magnitudeBits m q := by
  rw [magnitude_double_iff, magnitudeBits_double, ofBits_double]
  -- the three fields, without the divisions
  obtain ⟨s, e, r, hs, he, hr, rfl⟩ : ∃ s e r, s < 2 ∧ e < 2 ^ 11 ∧ r < 2 ^ 52
      ∧ n = s * 2 ^ 63 + e * 2 ^ 52 + r :=
    ⟨n / 2 ^ 52 / 2 ^ 11, n / 2 ^ 52 % 2 ^ 11, n % 2 ^ 52, by omega, by omega, by omega, by omega⟩
  rw [show (s * 2 ^ 63 + e * 2 ^ 52 + r) % 2 ^ 52 = r by omega,
    show (s * 2 ^ 63 + e * 2 ^ 52 + r) / 2 ^ 52 % 2 ^ 11 = e by omega,
    show (s * 2 ^ 63 + e * 2 ^ 52 + r) / 2 ^ 63 % 2 = s by omega]
  cases negative <;> simp only [Bool.false_eq_true, if_true, if_false]
  all_goals
    split_ifs with hinf hzero hsub
    all_goals simp only [Binary.finite.injEq, false_iff, beq_iff_eq, beq_eq_false_iff_ne]
    all_goals omega

/-! ## 4. Finite doubles -/

variable {negative : Bool} {m : Nat} {q : Int}

theorem ofFloat_eq_finite_iff : Binary.ofFloat x = .finite negative m q ↔
    Format.double.Magnitude m q
      ∧ bits x = (if negative then 2 ^ 63 else 0) + Format.double.magnitudeBits m q :=
  ofBits_double_eq_finite_iff (bits_lt x)

/-- **A finite double is its sign and its magnitude.** -/
theorem eq_of_ofFloat (hx : Binary.ofFloat x = .finite negative m q)
    (hy : Binary.ofFloat y = .finite negative m q) : x = y :=
  eq_of_bits ((ofFloat_eq_finite_iff.mp hx).2.trans (ofFloat_eq_finite_iff.mp hy).2.symm)

theorem isFinite_iff_ofFloat :
    x.isFinite = true ↔ ∃ negative m q, Binary.ofFloat x = .finite negative m q := by
  rw [isFinite_iff_bits]
  have hbits : Binary.ofFloat x = Binary.ofBits .double (bits x) := rfl
  rw [hbits, ofBits_double]
  split_ifs <;> simp_all

theorem Format.Magnitude.bits_lt (h : Format.double.Magnitude m q) :
    Format.double.magnitudeBits m q < 2047 * 2 ^ 52 :=
  infinity_double ▸ h.below

theorem ofFloat_neg (h : Binary.ofFloat x = .finite negative m q) :
    Binary.ofFloat (-x) = .finite (!negative) m q := by
  obtain ⟨hm, hbits⟩ := ofFloat_eq_finite_iff.mp h
  have hlt := hm.bits_lt
  have hneg := bits_neg (isFinite_iff_bits.mp (isFinite_iff_ofFloat.mpr ⟨_, _, _, h⟩))
  refine ofFloat_eq_finite_iff.mpr ⟨hm, ?_⟩
  rw [hneg, hbits]
  cases negative <;> simp only [Bool.not_true, Bool.not_false, Bool.false_eq_true, if_true,
    if_false] <;> omega

theorem neg_neg_of_ofFloat (h : Binary.ofFloat x = .finite negative m q) : - -x = x :=
  eq_of_ofFloat (ofFloat_neg (ofFloat_neg h)) (by rwa [Bool.not_not])

theorem ofFloat_ofBits (h : Format.double.Magnitude m q) :
    Binary.ofFloat (Float.ofBits (UInt64.ofNat (Format.double.magnitudeBits m q)))
      = .finite false m q := by
  have hlt := h.bits_lt
  refine ofFloat_eq_finite_iff.mpr ⟨h, ?_⟩
  rw [bits_ofBits (by omega) (by omega)]
  simp

end Decimal
end StageScript

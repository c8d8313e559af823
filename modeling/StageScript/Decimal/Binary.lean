/-
# What the bits of a floating-point number stand for

Every rule about the text of a number, about whole numbers and about rounding is stated on
the exact value `± mantissa · 2 ^ scale`, never on the machine number.  This module is the
only one that looks at the bits.
-/

namespace StageScript
namespace Decimal

/-! ## 1. Formats -/

/-- The widths of the two magnitude fields of a binary format. -/
structure Format where
  fractionBits : Nat
  exponentBits : Nat
  deriving DecidableEq, Repr

/-- Numbers of 64 bits. -/
def Format.double : Format := ⟨52, 11⟩

/-- Numbers of 32 bits. -/
def Format.single : Format := ⟨23, 8⟩

/-- The distance between a stored exponent and the one it means. -/
def Format.bias (f : Format) : Nat := (1 <<< (f.exponentBits - 1)) - 1

/-- The scale of the smallest positive number. -/
def Format.leastScale (f : Format) : Int := 1 - (f.bias : Int) - f.fractionBits

/-- The bits of infinity. -/
def Format.infinity (f : Format) : Nat := ((1 <<< f.exponentBits) - 1) <<< f.fractionBits

/-! ## 2. Values -/

/-- A decoded number. -/
inductive Binary where
  | nan
  | infinite (negative : Bool)
  /-- `± mantissa · 2 ^ scale` -/
  | finite (negative : Bool) (mantissa : Nat) (scale : Int)
  deriving DecidableEq, Repr

namespace Binary

/-- Reads the three fields of a bit pattern. -/
def ofBits (f : Format) (bits : Nat) : Binary :=
  let fraction := bits % (1 <<< f.fractionBits)
  let exponent := (bits >>> f.fractionBits) % (1 <<< f.exponentBits)
  let negative := (bits >>> (f.fractionBits + f.exponentBits)) % 2 == 1
  if exponent = (1 <<< f.exponentBits) - 1 then
    if fraction = 0 then infinite negative else nan
  else if exponent = 0 then finite negative fraction f.leastScale
  else
    finite negative ((1 <<< f.fractionBits) + fraction) (f.leastScale + (exponent - 1 : Nat))

/-- The value of a number of 64 bits. -/
def ofFloat (x : Float) : Binary := ofBits .double x.toBits.toNat

/-- The value of a number of 32 bits. -/
def ofFloat32 (x : Float32) : Binary := ofBits .single x.toBits.toNat

/-- A finite value without a fractional part. -/
def isWhole : Binary → Bool
  | finite _ m q => 0 ≤ q || m % (1 <<< (-q).toNat) == 0
  | _ => false

/-- `magnitude · factor` as a quotient of natural numbers. -/
def quotient (m : Nat) (q : Int) (factor : Nat) : Nat × Nat :=
  ((m <<< q.toNat) * factor, 1 <<< (-q).toNat)

/-- The nearest 64-bit integer toward zero; what lies outside goes to the nearer end, and what
is no number to zero. -/
def toInt64 : Binary → Int64
  | nan => 0
  | infinite negative => if negative then Int64.minValue else Int64.maxValue
  | finite negative m q =>
    let (num, den) := quotient m q 1
    let n : Int := (num / den : Nat)
    let n := if negative then -n else n
    if Int64.maxValue.toInt ≤ n then Int64.maxValue
    else if n ≤ Int64.minValue.toInt then Int64.minValue
    else Int64.ofInt n

end Binary

/-! ## 3. Rounding a quotient -/

/-- `num / den` to the nearest natural number, a half to the even neighbour. -/
def roundHalfEven (num den : Nat) : Nat :=
  let below := num / den
  let twice := 2 * (num % den)
  if twice < den ∨ (twice = den ∧ below % 2 = 0) then below else below + 1

/-- The greatest `e` such that the positive quotient `num / den` is at least `2 ^ e`. -/
def logQuotient (num den : Nat) : Int :=
  let e := (num.log2 : Int) - den.log2
  if den <<< e.toNat ≤ num <<< (-e).toNat then e else e - 1

/-- **The nearest number of a format**, as bits without a sign.  The numbers of one magnitude
are the multiples of `2 ^ scale`, so one rounding finds the nearest of them, a half going to the
even one.  A multiple that leaves the magnitude carries into the exponent, and what lies beyond
the greatest number is infinite. -/
def Format.nearest (f : Format) (num den : Nat) : Nat :=
  if num = 0 then 0
  else
    let fitting := logQuotient num den - f.fractionBits
    let scale := if fitting < f.leastScale then f.leastScale else fitting
    let m := roundHalfEven (num <<< (-scale).toNat) (den <<< scale.toNat)
    let bits := ((scale - f.leastScale).toNat <<< f.fractionBits) + m
    if f.infinity < bits then f.infinity else bits

end Decimal
end StageScript

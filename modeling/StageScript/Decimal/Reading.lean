/-
# Reading an unsigned decimal

A literal is a run of digits with at most one point in it.  Its value is the double nearest to
what it denotes.  A span with a second point denotes nothing.

`Format.nearestDecimal` rounds once, from the decimal to the format that is asked for: a number
of 32 bits is not read by way of a double, which could round a second time.
-/
import StageScript.Decimal.Binary

namespace StageScript
namespace Decimal

/-- The value of a run of digits. -/
def natOfDigits (ds : List Char) : Nat :=
  ds.foldl (fun n d => 10 * n + (d.toNat - '0'.toNat)) 0

/-- The bits of the number of a format that is nearest to `digits · 10 ^ exponent`.  Since
`8 < 10`, the first two cases say which powers lie beyond all numbers, and which products below
half of the smallest one; they keep the powers that are computed small. -/
def Format.nearestDecimal (f : Format) (digits : Nat) (exponent : Int) : Nat :=
  if digits = 0 then 0
  else if f.bias + 1 < exponent then f.infinity
  else if exponent < 0 ∧ digits.log2 + 1 + 3 * exponent < f.leastScale then 0
  else f.nearest (digits * Nat.pow 10 exponent.toNat) (Nat.pow 10 (-exponent).toNat)

/-- The double nearest to `whole.fraction`. -/
def ofDigits (whole fraction : List Char) : Float :=
  Float.ofBits (UInt64.ofNat
    (Format.double.nearestDecimal (natOfDigits (whole ++ fraction)) (-fraction.length)))

/-- The value of digits with at most one point among them; a point needs a digit behind it. -/
def read? (cs : List Char) : Option Float :=
  let whole := cs.takeWhile Char.isDigit
  match cs.dropWhile Char.isDigit with
  | [] => if whole.isEmpty then none else some (ofDigits whole [])
  | c :: fraction =>
    if c = '.' ∧ fraction ≠ [] ∧ fraction.all Char.isDigit then some (ofDigits whole fraction)
    else none

end Decimal
end StageScript

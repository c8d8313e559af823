/-
# How a number is written

Four layouts are in use, all of them over the exact value.

* `plain`: the shortest digits, never an exponent, no point in a whole number.
* `marked`: the same, but a whole number ends in `.0`, and below `10 ^ -4` and from `10 ^ 16` on
  the number has an exponent; it always shows that it is a number with a fraction.
* `fixed`: a given number of places, the exact value rounded with a half to the even neighbour.
* `plainSingle`: as `plain`, for numbers of 32 bits.

Zero keeps its sign in all of them.
-/
import StageScript.Decimal.Shortest

namespace StageScript
namespace Decimal

/-! ## 1. Digits to characters -/

/-- `n` zeros. -/
def zeros (n : Nat) : List Char := List.replicate n '0'

/-- The digits of a natural number. -/
def digitChars (n : Nat) : List Char := Nat.toDigits 10 n

/-- A decimal without an exponent.  `places` is the least number of digits behind the point;
without any there is no point. -/
def positional (d : Scaled) (places : Nat) : List Char :=
  let ds := digitChars d.digits
  let point : Int := ds.length + d.exponent
  let (whole, fraction) :=
    if d.exponent ≥ 0 then (ds ++ zeros d.exponent.toNat, [])
    else if point > 0 then (ds.take point.toNat, ds.drop point.toNat)
    else (['0'], zeros (-point).toNat ++ ds)
  let fraction := fraction ++ zeros (places - fraction.length)
  if fraction.isEmpty then whole else whole ++ '.' :: fraction

/-- One digit before the point, the others behind it, then the exponent. -/
def exponential (d : Scaled) : List Char :=
  let ds := digitChars d.digits
  let power : Int := ds.length - 1 + d.exponent
  let fraction := ds.drop 1
  ds.take 1 ++ (if fraction.isEmpty then [] else '.' :: fraction) ++ 'e' :: (toString power).toList

/-- The sign of a negative number. -/
def signChars (negative : Bool) : List Char := if negative then ['-'] else []

/-! ## 2. The layouts -/

/-- The text of a value whose finite magnitudes are written by `magnitude`. -/
def Binary.write (magnitude : Nat → Int → List Char) : Binary → String
  | .nan => "NaN"
  | .infinite negative => if negative then "-inf" else "inf"
  | .finite negative m q => String.ofList (signChars negative ++ magnitude m q)

/-- The magnitude in the plain layout of a format. -/
def plainMagnitude (f : Format) (m : Nat) (q : Int) : List Char :=
  if m = 0 then ['0'] else positional (shortest f m q) 0

/-- The shortest digits without an exponent. -/
def plain (x : Float) : String := (Binary.ofFloat x).write (plainMagnitude .double)

/-- The shortest digits of a number of 32 bits, without an exponent. -/
def plainSingle (x : Float32) : String := (Binary.ofFloat32 x).write (plainMagnitude .single)

/-- A positive magnitude from `10 ^ -4` on and below `10 ^ 16`. -/
def isModerate (m : Nat) (q : Int) : Bool :=
  let (num, den) := Binary.quotient m q 1
  den ≤ num * 10000 && num < den * 10000000000000000

/-- The magnitude in the marked layout.  No double lies between `10 ^ -4` and the double nearest
to it, so comparing with the exact limit is the same as comparing with that double. -/
def markedMagnitude (m : Nat) (q : Int) : List Char :=
  if m = 0 then "0.0".toList
  else if isModerate m q then positional (shortest .double m q) 1
  else exponential (shortest .double m q)

/-- The shortest digits, with a point or an exponent in every case. -/
def marked (x : Float) : String := (Binary.ofFloat x).write markedMagnitude

/-- The magnitude with a fixed number of places. -/
def fixedMagnitude (places m : Nat) (q : Int) : List Char :=
  let (num, den) := Binary.quotient m q (Nat.pow 10 places)
  let ds := digitChars (roundHalfEven num den)
  let ds := zeros (places + 1 - ds.length) ++ ds
  let point := ds.length - places
  if places = 0 then ds else ds.take point ++ '.' :: ds.drop point

/-- A fixed number of places. -/
def fixed (places : Nat) (x : Float) : String :=
  (Binary.ofFloat x).write (fixedMagnitude places)

end Decimal
end StageScript

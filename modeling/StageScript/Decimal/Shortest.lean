/-
# The fewest digits that read back

A number is written with the fewest decimal digits that single it out among the numbers of
its format.  The reals that round to `mantissa · 2 ^ scale` form an interval around it, whose
ends belong to it when the mantissa is even.  On the grid of the decimals with `n` digits the
only candidates are the two neighbours of the value; the first `n` with a candidate inside
the interval wins, of two candidates the nearer one, and the upper one when both are equally
near.

Seventeen digits single out any number of 64 bits, so the search is bounded by that count.
-/
import StageScript.Decimal.Binary

namespace StageScript
namespace Decimal

/-- The decimal `digits · 10 ^ exponent`. -/
structure Scaled where
  digits : Nat
  exponent : Int
  deriving DecidableEq, Repr

/-! ## 1. The interval -/

/-- A value and the ends of its interval, as natural numbers over one denominator. -/
structure Interval where
  low : Nat
  value : Nat
  high : Nat
  den : Nat
  /-- The ends belong to the interval. -/
  closed : Bool

/-- The interval of a positive value.  Below a power of two the neighbours lie half as far
apart. -/
def Interval.around (f : Format) (m : Nat) (q : Int) : Interval :=
  let up := 1 <<< (q - 2).toNat
  let below := if m = 1 <<< f.fractionBits then 1 else 2
  { low := (4 * m - below) * up
    value := 4 * m * up
    high := (4 * m + 2) * up
    den := 1 <<< (2 - q).toNat
    closed := m % 2 == 0 }

/-- `num / den` of the interval's own grid lies in it, after scaling by `factor`. -/
def Interval.holds (i : Interval) (factor num : Nat) : Bool :=
  if i.closed then i.low * factor ≤ num && num ≤ i.high * factor
  else i.low * factor < num && num < i.high * factor

/-! ## 2. The grid -/

/-- The number of decimal digits before the point; for a value below one, minus the number of
zeros that follow the point. -/
def pointPosition (num den : Nat) : Int :=
  if den ≤ num then (Nat.toDigits 10 (num / den)).length
  else 1 - ((Nat.toDigits 10 ((den - 1) / num)).length : Int)

/-- The better neighbour of the value on the grid of multiples of `10 ^ exponent`, if one of
the two lies in the interval. -/
def onGrid? (i : Interval) (exponent : Int) : Option Scaled :=
  let factor := Nat.pow 10 (-exponent).toNat
  let unit := i.den * Nat.pow 10 exponent.toNat
  let scaled := i.value * factor
  let d := scaled / unit
  match i.holds factor (d * unit), i.holds factor ((d + 1) * unit) with
  | false, false => none
  | true, false => some ⟨d, exponent⟩
  | false, true => some ⟨d + 1, exponent⟩
  | true, true =>
    if 2 * (scaled % unit) < unit then some ⟨d, exponent⟩ else some ⟨d + 1, exponent⟩

/-- A trailing zero of the digits goes into the exponent. -/
def Scaled.strip (fuel : Nat) (d : Scaled) : Scaled :=
  match fuel with
  | 0 => d
  | fuel + 1 =>
    if d.digits % 10 = 0 then strip fuel ⟨d.digits / 10, d.exponent + 1⟩ else d

/-- The shortest decimal of the positive value `m · 2 ^ q`. -/
def shortest (f : Format) (m : Nat) (q : Int) : Scaled :=
  let i := Interval.around f m q
  let point := pointPosition i.value i.den
  match (List.range 17).findSome? (fun n => onGrid? i (point - (n + 1 : Nat))) with
  | some d => d.strip 18
  | none => ⟨m, q⟩

end Decimal
end StageScript

/-
# Spans of time

A duration is a whole number of nanoseconds.  Durations are bounded: the longest one has
`2 ^ 64 - 1` seconds and as many nanoseconds as do not make another second, and every duration
carries the proof that it is not longer.  Adding two of them can therefore fail, and `add?` is the
only addition there is.
-/
import StageScript.Decimal.Binary

namespace StageScript

/-! ## 1. Range -/

/-- Nanoseconds of one second. -/
def Duration.second : Nat := 1000000000

/-- Nanoseconds of the longest duration. -/
def Duration.limit : Nat := UInt64.size * Duration.second - 1

/-- A span of time. -/
structure Duration where
  nanos : Nat
  le_limit : nanos ≤ Duration.limit
  deriving DecidableEq, Repr

namespace Duration

@[ext] theorem ext {a b : Duration} (h : a.nanos = b.nanos) : a = b := by
  cases a
  cases b
  cases h
  rfl

/-- A number of nanoseconds, if it is in the range. -/
def ofNanos? (n : Nat) : Option Duration := if h : n ≤ limit then some ⟨n, h⟩ else none

theorem ofNanos?_eq_some_iff {n : Nat} {d : Duration} : ofNanos? n = some d ↔ d.nanos = n := by
  unfold ofNanos?
  split
  · rw [Option.some.injEq]
    constructor
    · rintro rfl
      rfl
    · rintro rfl
      rfl
  · rename_i h
    simp only [reduceCtorEq, false_iff]
    rintro rfl
    exact h d.le_limit

theorem ofNanos?_eq_none_iff {n : Nat} : ofNanos? n = none ↔ limit < n := by
  unfold ofNanos?
  split
  · rename_i h
    exact iff_of_false (by simp) (Nat.not_lt.mpr h)
  · rename_i h
    exact iff_of_true rfl (Nat.lt_of_not_le h)

/-- A number of nanoseconds; the longest duration if there are more. -/
def ofNanos (n : Nat) : Duration := ⟨Nat.min n limit, Nat.min_le_right _ _⟩

theorem nanos_ofNanos {n : Nat} (h : n ≤ limit) : (ofNanos n).nanos = n := Nat.min_eq_left h

@[simp] theorem ofNanos_nanos (d : Duration) : ofNanos d.nanos = d :=
  ext (nanos_ofNanos d.le_limit)

/-- A number of milliseconds. -/
def ofMillis (n : UInt64) : Duration :=
  ⟨n.toNat * 1000000, by
    have := n.toNat_lt
    simp only [limit, second, UInt64.size]
    omega⟩

/-- No time at all. -/
def zero : Duration := ⟨0, Nat.zero_le _⟩

instance : Inhabited Duration := ⟨zero⟩

/-- The longest duration. -/
def longest : Duration := ⟨limit, Nat.le_refl _⟩

theorem le_longest (d : Duration) : d.nanos ≤ longest.nanos := d.le_limit

/-! ## 2. Sums and comparisons -/

/-- The sum, if it is not longer than the longest duration. -/
def add? (a b : Duration) : Option Duration := ofNanos? (a.nanos + b.nanos)

/-- A sum is exact, and there is one whenever it is a duration. -/
theorem add?_eq_some_iff {a b c : Duration} : a.add? b = some c ↔ c.nanos = a.nanos + b.nanos :=
  ofNanos?_eq_some_iff

theorem add?_eq_none_iff {a b : Duration} : a.add? b = none ↔ limit < a.nanos + b.nanos :=
  ofNanos?_eq_none_iff

theorem add?_of_le {a b : Duration} (h : a.nanos + b.nanos ≤ longest.nanos) :
    a.add? b = some (ofNanos (a.nanos + b.nanos)) :=
  add?_eq_some_iff.mpr (nanos_ofNanos h)

/-- The longer of two durations. -/
def max (a b : Duration) : Duration := if a.nanos ≤ b.nanos then b else a

/-- The time from `a` to `b` on a clock that counts nanoseconds, but at most `most`; none if `b` is
not later. -/
def between (a b : Nat) (most : Duration) : Duration :=
  ⟨Nat.min (b - a) most.nanos, Nat.le_trans (Nat.min_le_right _ _) most.le_limit⟩

/-! ## 3. Seconds -/

/-- The nearest number of nanoseconds to a number of seconds, a half to the even neighbour.
Negative numbers, what is no finite number and what would be too long have none; minus zero is
zero. -/
def ofSeconds? (x : Float) : Option Duration :=
  match Decimal.Binary.ofFloat x with
  | .finite negative m q =>
    let (num, den) := Decimal.Binary.quotient m q second
    if negative && m != 0 then none else ofNanos? (Decimal.roundHalfEven num den)
  | _ => none

/-- The number of seconds, as the sum of the whole seconds and the rest. -/
def toSeconds (d : Duration) : Float :=
  Float.ofNat (d.nanos / second) + Float.ofNat (d.nanos % second) / Float.ofNat second

/-! ## 4. Text -/

/-- A number of `unit`s without trailing zeros behind the point. -/
def inUnit (nanos unit : Nat) : String :=
  let width := (Nat.toDigits 10 unit).length - 1
  let ds := Nat.toDigits 10 (nanos % unit)
  let padded := List.replicate (width - ds.length) '0' ++ ds
  let fraction := (padded.reverse.dropWhile (· == '0')).reverse
  toString (nanos / unit) ++ (if fraction.isEmpty then "" else "." ++ String.ofList fraction)

/-- The number and the largest unit that makes it at least one. -/
def text (d : Duration) : String :=
  if second ≤ d.nanos then inUnit d.nanos second ++ "s"
  else if 1000000 ≤ d.nanos then inUnit d.nanos 1000000 ++ "ms"
  else if 1000 ≤ d.nanos then inUnit d.nanos 1000 ++ "µs"
  else toString d.nanos ++ "ns"

end Duration
end StageScript

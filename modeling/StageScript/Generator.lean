/-
# Random numbers

A seed is stretched to a key of eight words, and the key determines a stream of 64-bit numbers:
the ChaCha stream with twelve rounds, two words a number.  A generator is a key and the count of
the numbers that have been taken, so its state says exactly where it stands.

A number from a range is the high half of the product of a stream number with the size of the
range.  Stream numbers whose product has too large a low half are passed over, which makes
every number of the range equally likely.
-/
import StageScript.Command

namespace StageScript

/-- Four words of a block. -/
structure Quad where
  a : UInt32
  b : UInt32
  c : UInt32
  d : UInt32
  deriving DecidableEq, Repr

namespace Quad

/-- Combines two quads word by word. -/
def zip (f : UInt32 → UInt32 → UInt32) (x y : Quad) : Quad :=
  ⟨f x.a y.a, f x.b y.b, f x.c y.c, f x.d y.d⟩

/-- The words moved one place to the left, around the end. -/
def turn (x : Quad) : Quad := ⟨x.b, x.c, x.d, x.a⟩

/-- Every word with its bits moved `n` places to the left, around the end. -/
def rotate (n : UInt32) (x : Quad) : Quad :=
  let f w := (w <<< n) ||| (w >>> (32 - n))
  ⟨f x.a, f x.b, f x.c, f x.d⟩

/-- The words in order. -/
def toList (x : Quad) : List UInt32 := [x.a, x.b, x.c, x.d]

end Quad

/-- Sixteen words in four rows. -/
structure Block where
  first : Quad
  second : Quad
  third : Quad
  fourth : Quad
  deriving DecidableEq, Repr

namespace Block

/-- Half a mixing step: adds the second row to the first, and the fourth row with it to the
third. -/
def halfStep (m n : UInt32) (x : Block) : Block :=
  let first := x.first.zip (· + ·) x.second
  let fourth := (x.fourth.zip (· ^^^ ·) first).rotate m
  let third := x.third.zip (· + ·) fourth
  let second := (x.second.zip (· ^^^ ·) third).rotate n
  ⟨first, second, third, fourth⟩

/-- Mixes every column. -/
def mix (x : Block) : Block := halfStep 8 7 (halfStep 16 12 x)

/-- Mixes the columns and then the diagonals. -/
def doubleRound (x : Block) : Block :=
  let y := mix x
  let z := mix ⟨y.first, y.second.turn, y.third.turn.turn, y.fourth.turn.turn.turn⟩
  ⟨z.first, z.second.turn.turn.turn, z.third.turn.turn, z.fourth.turn⟩

/-- Twelve rounds, with the starting words added at the end. -/
def scramble (x : Block) : Block :=
  let y := Nat.repeat doubleRound 6 x
  ⟨y.first.zip (· + ·) x.first, y.second.zip (· + ·) x.second,
   y.third.zip (· + ·) x.third, y.fourth.zip (· + ·) x.fourth⟩

/-- The words in order. -/
def words (x : Block) : List UInt32 :=
  x.first.toList ++ x.second.toList ++ x.third.toList ++ x.fourth.toList

end Block

/-- A key, and how many numbers of its stream have been taken. -/
structure Generator where
  low : Quad
  high : Quad
  taken : Nat
  deriving DecidableEq, Repr

namespace Generator

/-! ## 1. From a seed -/

/-- One word of a key, and the state that yields the next one. -/
def seedWord (s : UInt64) : UInt32 × UInt64 :=
  let s := s * 6364136223846793005 + 11634580027462260723
  let x := (((s >>> 18) ^^^ s) >>> 27).toUInt32
  let r := (s >>> 59).toUInt32
  ((x >>> r) ||| (x <<< (32 - r)), s)

/-- Four words of a key, and the state that yields the next one. -/
def seedQuad (s : UInt64) : Quad × UInt64 :=
  let (a, s) := seedWord s
  let (b, s) := seedWord s
  let (c, s) := seedWord s
  let (d, s) := seedWord s
  (⟨a, b, c, d⟩, s)

/-- The generator of a seed, at its first number. -/
def ofSeed (seed : UInt64) : Generator :=
  let (low, s) := seedQuad seed
  let (high, _) := seedQuad s
  ⟨low, high, 0⟩

/-! ## 2. The stream -/

/-- The block of the stream with a given number. -/
def block (g : Generator) (n : Nat) : Block :=
  let counter := UInt64.ofNat n
  Block.scramble
    ⟨⟨0x61707865, 0x3320646e, 0x79622d32, 0x6b206574⟩, g.low, g.high,
     ⟨counter.toUInt32, (counter >>> 32).toUInt32, 0, 0⟩⟩

/-- The next number of the stream.  A block holds eight. -/
def next (g : Generator) : UInt64 × Generator :=
  let words := (g.block (g.taken / 8)).words
  let i := 2 * (g.taken % 8)
  let low := (words.getD i 0).toUInt64
  let high := (words.getD (i + 1) 0).toUInt64
  (low ||| (high <<< 32), { g with taken := g.taken + 1 })

/-! ## 3. Ranges -/

/-- The largest low half that is not passed over, for a range of a given size. -/
def zone (size : Nat) : Nat := (size <<< (63 - size.log2)) - 1

/-- The high half of the first product whose low half lies in the zone.  The stream repeats
after `2 ^ 67` numbers, so after that many there is nothing new to try. -/
def pick (size : Nat) : Nat → Generator → Nat × Generator
  | 0, g =>
    let (v, g) := g.next
    (v.toNat * size / UInt64.size, g)
  | patience + 1, g =>
    let (v, g) := g.next
    let product := v.toNat * size
    if product % UInt64.size ≤ zone size then (product / UInt64.size, g)
    else pick size patience g

/-- A whole number between two bounds, both included.  When the range is that of all 64-bit
integers, the next number of the stream is the result. -/
def between (low high : Int64) (g : Generator) : Int × Generator :=
  let size := ((high.toInt - low.toInt + 1) % UInt64.size).toNat
  if size = 0 then
    let (v, g) := g.next
    (v.toInt64.toInt, g)
  else
    let (n, g) := pick size (8 * UInt64.size) g
    (low.toInt + n, g)

/-- A number of a range whose bounds may stand in either order. -/
def roll (r : RandomRange) (g : Generator) : Float × Generator :=
  let (n, g) := if r.first ≤ r.last then g.between r.first r.last else g.between r.last r.first
  (Float.ofInt n, g)

end Generator
end StageScript

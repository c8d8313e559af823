/-
# Colors

A color is kept as the script wrote it: a `#` with what follows it, or a name in lower case.
Whether it can be painted is decided when it is painted; a color that denotes no channels is
skipped.
-/
import StageScript.Color.Named
import StageScript.Text.Blank
import StageScript.Text.Lower

namespace StageScript

/-- A color as a script writes it. -/
inductive Color where
  /-- The text with its leading `#`, untouched. -/
  | hex (text : String)
  /-- A name in lower case. -/
  | named (name : String)
  deriving DecidableEq, Repr

namespace Color

/-- Straight channels with an alpha, where 255 is opaque. -/
structure Rgba where
  red : UInt8
  green : UInt8
  blue : UInt8
  alpha : UInt8
  deriving DecidableEq, Repr

/-! ## 1. From a token -/

/-- The color that a token means: what starts with `#` stays as it is, anything else is a name
and its case does not matter. -/
def resolve (token : String) : Color :=
  let cs := Text.trim token.toList
  if cs.head? = some '#' then hex (String.ofList cs)
  else named (String.ofList (Text.lower cs))

/-- The color of a run that sets none. -/
def black : Color := hex "#000000"

/-- The text of a color. -/
def text : Color → String
  | hex s | named s => s

/-! ## 2. To channels -/

/-- The value of a hexadecimal digit of either case. -/
def hexValue? (c : Char) : Option Nat :=
  if c.isDigit then some (c.toNat - '0'.toNat)
  else if 'a' ≤ c ∧ c ≤ 'f' then some (c.toNat - 'a'.toNat + 10)
  else if 'A' ≤ c ∧ c ≤ 'F' then some (c.toNat - 'A'.toNat + 10)
  else none

/-- The channel that two digits write. -/
def channel (high low : Nat) : UInt8 := UInt8.ofNat (16 * high + low)

/-- The channels that hexadecimal digits write: one or two digits a channel, with or without an
alpha. -/
def ofHexDigits? (ds : List Char) : Option Rgba := do
  match ← ds.mapM hexValue? with
  | [r, g, b] => some ⟨channel r r, channel g g, channel b b, 255⟩
  | [r, g, b, a] => some ⟨channel r r, channel g g, channel b b, channel a a⟩
  | [r, r', g, g', b, b'] => some ⟨channel r r', channel g g', channel b b', 255⟩
  | [r, r', g, g', b, b', a, a'] =>
    some ⟨channel r r', channel g g', channel b b', channel a a'⟩
  | _ => none

/-- The channels of a color; none for digits of a wrong number or kind and for unknown names. -/
def toRgba? : Color → Option Rgba
  | hex s => ofHexDigits? (s.toList.drop 1)
  | named name => (channelsOf? name).map fun (r, g, b) => ⟨r, g, b, 255⟩

end Color
end StageScript

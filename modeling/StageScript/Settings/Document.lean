/-
# The text of a settings file

A settings file is a JSON document.  `Document.ofBytes?` reads its structure and keeps numbers
and texts as they are written, because a field that is not known must be well formed but is
never evaluated: its number may lie outside every range, its text may name half a character, and
the bytes of its text need not be UTF-8.  The fields that are known evaluate what was kept
(`textOf?`, `Numeral.ofParts?`).

All that gives a document its structure is ASCII.  So the readers go byte by byte, with every
byte as the character of the same number, and only `textOf?` puts the bytes of a text together.

Every reader takes at least one byte or calls a reader that does, so twice the length of the
file bounds the depth of the calls.
-/
import StageScript.Color
import StageScript.Decimal.Reading

namespace StageScript

/-- The parts of a number as it is written. -/
structure NumberParts where
  negative : Bool
  whole : List Char
  /-- The digits behind a point. -/
  fraction : List Char
  hasFraction : Bool
  /-- The sign and the digits of an exponent. -/
  exponent : Option (Bool × List Char)

/-- A JSON value with its numbers and texts as they are written. -/
inductive Document where
  | null
  | bool (b : Bool)
  | numeral (parts : NumberParts)
  /-- The bytes between the quotes. -/
  | text (raw : List Char)
  | list (items : List Document)
  | object (members : List (List Char × Document))

namespace Document

/-! ## 1. Bytes and spans -/

/-- The character with the number of a byte. -/
def ofByte (b : UInt8) : Char := Char.ofNat b.toNat

/-- The byte with the number of a character. -/
def toByte (c : Char) : UInt8 := UInt8.ofNat c.toNat

/-- The blanks between the parts of a document. -/
def isBlank (c : Char) : Bool := c == ' ' || c == '\n' || c == '\t' || c == '\r'

/-- The text from its first character on that is not blank. -/
def skipBlanks (cs : List Char) : List Char := cs.dropWhile isBlank

/-- A hexadecimal digit. -/
def isHex (c : Char) : Bool := (Color.hexValue? c).isSome

/-- The bytes up to a closing quote, and the text behind it.  An escape must be one of the
known ones; control characters must be escaped. -/
def textSpan? : List Char → Option (List Char × List Char)
  | [] => none
  | '"' :: cs => some ([], cs)
  | '\\' :: 'u' :: a :: b :: c :: d :: cs =>
    if isHex a && isHex b && isHex c && isHex d then
      (textSpan? cs).map fun (raw, rest) => ('\\' :: 'u' :: a :: b :: c :: d :: raw, rest)
    else none
  | '\\' :: c :: cs =>
    if c ∈ ['"', '\\', '/', 'b', 'f', 'n', 'r', 't'] then
      (textSpan? cs).map fun (raw, rest) => ('\\' :: c :: raw, rest)
    else none
  | c :: cs =>
    if c.toNat < 0x20 || c == '\\' then none
    else (textSpan? cs).map fun (raw, rest) => (c :: raw, rest)

/-- A run of digits and the text behind it. -/
def digitRun (cs : List Char) : List Char × List Char :=
  (cs.takeWhile Char.isDigit, cs.dropWhile Char.isDigit)

/-- The digits before the point: a single zero, or digits that do not start with one. -/
def wholePart? (cs : List Char) : Option (List Char × List Char) :=
  let (ds, rest) := digitRun cs
  if ds.isEmpty || (ds.head? == some '0' && ds.length != 1) then none else some (ds, rest)

/-- The digits behind a point, if there is one. -/
def fractionPart? : List Char → Option (Option (List Char) × List Char)
  | '.' :: cs =>
    let (ds, rest) := digitRun cs
    if ds.isEmpty then none else some (some ds, rest)
  | cs => some (none, cs)

/-- A sign. -/
def signPart : List Char → Bool × List Char
  | '-' :: cs => (true, cs)
  | '+' :: cs => (false, cs)
  | cs => (false, cs)

/-- The sign and the digits of an exponent, if there is one. -/
def exponentPart? : List Char → Option (Option (Bool × List Char) × List Char)
  | c :: cs =>
    if c = 'e' ∨ c = 'E' then
      let (negative, cs) := signPart cs
      let (ds, rest) := digitRun cs
      if ds.isEmpty then none else some (some (negative, ds), rest)
    else some (none, c :: cs)
  | [] => some (none, [])

/-- A number at the start of a text, and the text behind it. -/
def number? (cs : List Char) : Option (NumberParts × List Char) := do
  let (negative, cs) := match cs with
    | '-' :: cs => (true, cs)
    | cs => (false, cs)
  let (whole, cs) ← wholePart? cs
  let (fraction, cs) ← fractionPart? cs
  let (exponent, cs) ← exponentPart? cs
  pure (⟨negative, whole, fraction.getD [], fraction.isSome, exponent⟩, cs)

/-- The text behind a word, if it starts with it. -/
def behindWord? (word : String) (cs : List Char) : Option (List Char) :=
  if word.toList.isPrefixOf cs then some (cs.drop word.length) else none

/-! ## 2. Values -/

mutual

/-- A value and the text behind it. -/
def value? : Nat → List Char → Option (Document × List Char)
  | 0, _ => none
  | n + 1, cs =>
    match skipBlanks cs with
    | 'n' :: cs => (behindWord? "ull" cs).map (null, ·)
    | 't' :: cs => (behindWord? "rue" cs).map (bool true, ·)
    | 'f' :: cs => (behindWord? "alse" cs).map (bool false, ·)
    | '"' :: cs => (textSpan? cs).map fun (raw, rest) => (text raw, rest)
    | '[' :: cs =>
      match skipBlanks cs with
      | ']' :: cs => some (list [], cs)
      | cs => (items? n cs).map fun (items, rest) => (list items, rest)
    | '\x7b' :: cs =>
      match skipBlanks cs with
      | '\x7d' :: cs => some (object [], cs)
      | cs => (members? n cs).map fun (members, rest) => (object members, rest)
    | cs => (number? cs).map fun (parts, rest) => (numeral parts, rest)

/-- The items of a list up to its end. -/
def items? : Nat → List Char → Option (List Document × List Char)
  | 0, _ => none
  | n + 1, cs => do
    let (item, cs) ← value? n cs
    match skipBlanks cs with
    | ',' :: cs => do
      let (items, rest) ← items? n cs
      pure (item :: items, rest)
    | ']' :: cs => pure ([item], cs)
    | _ => none

/-- The members of an object up to its end. -/
def members? : Nat → List Char → Option (List (List Char × Document) × List Char)
  | 0, _ => none
  | n + 1, cs =>
    match skipBlanks cs with
    | '"' :: cs => do
      let (key, cs) ← textSpan? cs
      match skipBlanks cs with
      | ':' :: cs => do
        let (v, cs) ← value? n cs
        match skipBlanks cs with
        | ',' :: cs => do
          let (members, rest) ← members? n cs
          pure ((key, v) :: members, rest)
        | '\x7d' :: cs => pure ([(key, v)], cs)
        | _ => none
      | _ => none
    | _ => none

end

/-- The document that a whole file is. -/
def ofBytes? (bytes : List UInt8) : Option Document := do
  let (d, rest) ← value? (2 * bytes.length + 2) (bytes.map ofByte)
  if (skipBlanks rest).isEmpty then some d else none

/-! ## 3. Texts -/

/-- The number of four hexadecimal digits. -/
def codeUnit (a b c d : Char) : Nat :=
  [a, b, c, d].foldl (fun n x => 16 * n + (Color.hexValue? x).getD 0) 0

/-- The character of a single-letter escape. -/
def plainEscape : Char → Char
  | 'b' => '\x08'
  | 'f' => '\x0c'
  | 'n' => '\n'
  | 'r' => '\r'
  | 't' => '\t'
  | c => c

/-- The bytes of the text that is written between two quotes.  A character beyond the first
plane is written as two escapes; half of such a pair stands for nothing. -/
def textBytes? : List Char → Option (List UInt8)
  | [] => some []
  | '\\' :: 'u' :: a :: b :: c :: d :: cs =>
    let unit := codeUnit a b c d
    if 0xDC00 ≤ unit ∧ unit ≤ 0xDFFF then none
    else if 0xD800 ≤ unit ∧ unit ≤ 0xDBFF then
      match cs with
      | '\\' :: 'u' :: a :: b :: c :: d :: cs =>
        let low := codeUnit a b c d
        if 0xDC00 ≤ low ∧ low ≤ 0xDFFF then
          let x := Char.ofNat (0x10000 + (unit - 0xD800) * 0x400 + (low - 0xDC00))
          (textBytes? cs).map (String.utf8EncodeChar x ++ ·)
        else none
      | _ => none
    else (textBytes? cs).map (String.utf8EncodeChar (Char.ofNat unit) ++ ·)
  | '\\' :: c :: cs => (textBytes? cs).map (toByte (plainEscape c) :: ·)
  | c :: cs => (textBytes? cs).map (toByte c :: ·)

/-- The text that is written between two quotes.  Its bytes must be UTF-8. -/
def textOf? (raw : List Char) : Option String :=
  (textBytes? raw).bind fun bytes => String.fromUTF8? ⟨bytes.toArray⟩

end Document

/-! ## 4. Numbers -/

/-- The value of a number in a document. -/
inductive Numeral where
  /-- A whole number of at most 64 bits. -/
  | natural (n : UInt64)
  /-- Minus a whole number of at most `2 ^ 63`, which is not zero. -/
  | negative (n : UInt64)
  | real (x : Float)

namespace Numeral

/-- The digits that fit into a significand of 64 bits: the significand and the digits left. -/
def absorb (significand : Nat) : List Char → Nat × List Char
  | [] => (significand, [])
  | d :: ds =>
    let next := 10 * significand + (d.toNat - '0'.toNat)
    if next < UInt64.size then absorb next ds else (significand, d :: ds)

/-- `10 ^ n` as a double. -/
def powerOfTen (n : Nat) : Float := Float.ofScientific 1 false n

/-- `x · 10 ^ e` by one multiplication or division in doubles, and by more divisions when the
exponent is very small.  A value beyond the doubles is none. -/
def scale? (x : Float) (e : Int) : Option Float :=
  if e.natAbs ≤ 308 then
    if 0 ≤ e then
      let y := x * powerOfTen e.natAbs
      if y.isInf then none else some y
    else some (x / powerOfTen e.natAbs)
  else if x == 0 then some x
  else if 0 ≤ e then none
  else scale? (x / powerOfTen 308) (e + 308)
termination_by e.natAbs
decreasing_by omega

/-- The greatest exponent that is evaluated. -/
def exponentLimit : Nat := 2147483647

/-- The magnitude of a number with a fraction or an exponent, or of too many digits. -/
def realMagnitude? (p : NumberParts) : Option Float :=
  let (s, unread) := absorb 0 p.whole
  let (s', unread') := absorb s p.fraction
  let shift : Int := (unread.length : Int) - (p.fraction.length - unread'.length : Nat)
  let x := (UInt64.ofNat s').toFloat
  match p.exponent with
  | none => scale? x shift
  | some (down, ds) =>
    let e := Decimal.natOfDigits ds
    if exponentLimit < e then
      if s' != 0 && !down then none else some 0
    else scale? x (if down then shift - e else shift + e)

/-- The value of the parts of a number.  A whole number that fits into 64 bits stays one. -/
def ofParts? (p : NumberParts) : Option Numeral :=
  let (s, unread) := absorb 0 p.whole
  if unread.isEmpty && !p.hasFraction && p.exponent.isNone then
    if !p.negative then some (natural (UInt64.ofNat s))
    else if s = 0 ∨ UInt64.size / 2 < s then some (real (-(UInt64.ofNat s).toFloat))
    else some (negative (UInt64.ofNat s))
  else (realMagnitude? p).map fun x => real (if p.negative then -x else x)

/-- The nearest number of 32 bits; beyond them, infinity. -/
def toFloat32 : Numeral → Float32
  | natural n => n.toFloat32
  | negative n => -n.toFloat32
  | real x => x.toFloat32

end Numeral
end StageScript

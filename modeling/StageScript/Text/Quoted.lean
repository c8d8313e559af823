/-
# Quoted texts

The form in which a message or a table shows a text so that its limits can be seen: between
double quotes, with an escape for the characters that would be invisible or would run into
their neighbours.
-/
import StageScript.Text.Printing

namespace StageScript
namespace Text

/-! ## 1. One character -/

/-- The digits of a number to the base 16, in lower case and without leading zeros. -/
def hexDigits (n : Nat) : List Char := Nat.toDigits 16 n

/-- An escape by code point: the hexadecimal digits between braces. -/
def codePointEscape (c : Char) : List Char :=
  "\\u\x7b".toList ++ hexDigits c.toNat ++ ['\x7d']

/-- How one character stands between the quotes. -/
def quoteChar (c : Char) : List Char :=
  if c = '\x00' then ['\\', '0']
  else if c = '\t' then ['\\', 't']
  else if c = '\r' then ['\\', 'r']
  else if c = '\n' then ['\\', 'n']
  else if c = '"' then ['\\', '"']
  else if c = '\\' then ['\\', '\\']
  else if isGraphemeExtend c || isUnprintable c then codePointEscape c
  else [c]

/-! ## 2. Texts and lists of texts -/

/-- A text between double quotes. -/
def quote (cs : List Char) : List Char := '"' :: cs.flatMap quoteChar ++ ['"']

/-- A text between double quotes. -/
def quoted (s : String) : String := String.ofList (quote s.toList)

/-- Quoted texts between brackets, with a comma and a space between two of them. -/
def quotedList (ss : List String) : String :=
  "[" ++ ", ".intercalate (ss.map quoted) ++ "]"

end Text
end StageScript

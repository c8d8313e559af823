/-
# Tokens

A line of a script is a sequence of tokens.  The verbs of the language are ordinary words, so
a script may use them as names as well.  A character that belongs to no token is a token of
its own: commands that take the rest of the line as it stands accept it, all others refuse it
when they meet it.
-/
import StageScript.Decimal.Layout
import StageScript.Text.Quoted

namespace StageScript

/-- The operators and the punctuation. -/
inductive Mark where
  | plus
  | minus
  | star
  | slash
  | equals
  | comma
  | dot
  | leftParen
  | rightParen
  deriving DecidableEq, Repr

namespace Mark

/-- The mark that a character stands for. -/
def ofChar? : Char → Option Mark
  | '+' => some plus
  | '-' => some minus
  | '*' => some star
  | '/' => some slash
  | '=' => some equals
  | ',' => some comma
  | '.' => some dot
  | '(' => some leftParen
  | ')' => some rightParen
  | _ => none

/-- The mark as a message names it. -/
def name : Mark → String
  | plus => "Plus"
  | minus => "Minus"
  | star => "Star"
  | slash => "Slash"
  | equals => "Eq"
  | comma => "Comma"
  | dot => "Dot"
  | leftParen => "LParen"
  | rightParen => "RParen"

end Mark

namespace Token

/-- What a token is. -/
inductive Kind where
  | number (value : Float)
  /-- A name or a verb. -/
  | word (name : String)
  /-- A quoted text, without its quotes and escapes. -/
  | text (value : String)
  /-- A `#` and the letters and digits behind it. -/
  | hex (digits : String)
  /-- A character outside the language. -/
  | stray (char : String)
  | mark (m : Mark)
  deriving Repr

namespace Kind

/-- The token is the bare word `w`. -/
def isWord (w : String) : Kind → Bool
  | word s => s == w
  | _ => false

/-- The token as a message names it. -/
def describe : Kind → String
  | number value => "Number(" ++ Decimal.marked value ++ ")"
  | word name => "Ident(" ++ Text.quoted name ++ ")"
  | text value => "StringLit(" ++ Text.quoted value ++ ")"
  | hex digits => "HexColor(" ++ Text.quoted digits ++ ")"
  | stray char => "Unknown(" ++ Text.quoted char ++ ")"
  | mark m => m.name

end Kind

/-- What a message finds at a place: a token, or the end of the line. -/
def describeFound : Option Kind → String
  | some k => k.describe
  | none => "Eof"

end Token

/-- A token and the byte at which it starts. -/
structure Token where
  kind : Token.Kind
  offset : Nat
  deriving Repr

/-- Columns count bytes from one. -/
def Token.column (t : Token) : Nat := t.offset + 1

end StageScript

/-
# Reading the tokens of a line

A reader takes tokens off the front of a line and either returns what they mean, with the
tokens behind them, or refuses at the token it met.  The place of the text in its line is
fixed while it is read, so every refusal can say its line and its column.

`Reader` is the type for the forms of the language, which take a fixed number of steps.  The
expressions are recursive and state in their types how much they leave (`Shorter`, `NoLonger`).
-/
import StageScript.SyntaxError

namespace StageScript

/-! ## 1. Places and refusals -/

/-- Where a text stands: its line, the bytes of the line before it, and the byte of the text
at which its tokens stop. -/
structure Place where
  line : Nat
  base : Nat
  stop : Nat
  deriving DecidableEq, Repr

namespace Place

/-- The byte of the text at which the tokens go on. -/
def offset (p : Place) (ts : List Token) : Nat := (ts.head?.map Token.offset).getD p.stop

/-- A fault at the token that comes next. -/
def fault (p : Place) (ts : List Token) (cause : SyntaxError.Cause) : SyntaxError :=
  ⟨cause, p.line, p.base + p.offset ts + 1⟩

/-- What comes next, for a message. -/
def found (ts : List Token) : Option Token.Kind := ts.head?.map Token.kind

/-- No form goes on with the next token. -/
def unexpected (p : Place) (ts : List Token) (e : SyntaxError.Expected) : SyntaxError :=
  p.fault ts (.unexpected e (found ts))

/-- The form that is being read lacks a part here. -/
def missing (p : Place) (ts : List Token) (e : SyntaxError.Expected) : SyntaxError :=
  p.fault ts (.missing e (found ts))

end Place

/-! ## 2. What is left -/

/-- What is left of `ts` behind something that took at least one token. -/
abbrev Shorter (ts : List Token) := { rest : List Token // rest.length < ts.length }

/-- What is left of `ts` behind something that may have taken nothing. -/
abbrev NoLonger (ts : List Token) := { rest : List Token // rest.length ≤ ts.length }

namespace NoLonger

variable {ts : List Token}

/-- Nothing was taken. -/
def all : NoLonger ts := ⟨ts, Nat.le_refl _⟩

/-- Something was taken. -/
def ofShorter (rest : Shorter ts) : NoLonger ts := ⟨rest.1, Nat.le_of_lt rest.2⟩

end NoLonger

namespace Shorter

variable {t : Token} {ts : List Token}

/-- One token was taken. -/
def tail : Shorter (t :: ts) := ⟨ts, Nat.lt_succ_self _⟩

/-- One more token was taken before. -/
def behind (rest : Shorter ts) : Shorter (t :: ts) := ⟨rest.1, Nat.lt_succ_of_lt rest.2⟩

/-- More tokens may have been taken behind. -/
def upTo (rest : Shorter ts) (more : NoLonger rest.1) : Shorter ts :=
  ⟨more.1, Nat.lt_of_le_of_lt more.2 rest.2⟩

end Shorter

/-! ## 3. Readers -/

/-- A step that takes tokens off the front. -/
abbrev Reader := ReaderT Place (StateT (List Token) (Except SyntaxError))

namespace Reader

/-- Goes on as the function says, which sees the place and the tokens. -/
def step {α : Type} (f : Place → List Token → Except SyntaxError (α × List Token)) : Reader α := f

/-- The tokens that are left. -/
def ahead : Reader (List Token) := get

/-- Refuses what comes next. -/
def unexpected {α : Type} (e : SyntaxError.Expected) : Reader α :=
  step fun p ts => .error (p.unexpected ts e)

/-- Refuses for want of a part. -/
def missing {α : Type} (e : SyntaxError.Expected) : Reader α :=
  step fun p ts => .error (p.missing ts e)

/-- Drops the next token. -/
def skip : Reader Unit := modify List.tail

/-- Takes the word `w` if it comes next. -/
def takesWord (w : String) : Reader Bool :=
  step fun _ ts =>
    match ts with
    | t :: rest => .ok (if t.kind.isWord w then (true, rest) else (false, ts))
    | [] => .ok (false, [])

/-- Takes the word `w`. -/
def word (w : String) : Reader Unit := do
  unless ← takesWord w do missing (.word w)

/-- Takes the mark `m`. -/
def mark (m : Mark) : Reader Unit :=
  step fun p ts =>
    match ts with
    | ⟨.mark m', _⟩ :: rest => if m' = m then .ok ((), rest) else .error (p.missing ts (.mark m))
    | _ => .error (p.missing ts (.mark m))

/-- Takes a name. -/
def identifier : Reader String :=
  step fun p ts =>
    match ts with
    | ⟨.word name, _⟩ :: rest => .ok (name, rest)
    | _ => .error (p.missing ts .identifier)

/-- Takes a quoted text. -/
def textLiteral : Reader String :=
  step fun p ts =>
    match ts with
    | ⟨.text value, _⟩ :: rest => .ok (value, rest)
    | _ => .error (p.missing ts .textLiteral)

/-- Takes a color of one token, as it is written. -/
def color : Reader String :=
  step fun p ts =>
    match ts with
    | ⟨.hex s, _⟩ :: rest | ⟨.word s, _⟩ :: rest => .ok (s, rest)
    | _ => .error (p.missing ts .color)

/-- Takes a number with an optional minus. -/
def number : Reader Float :=
  step fun p ts =>
    match ts with
    | ⟨.mark .minus, _⟩ :: ⟨.number x, _⟩ :: rest => .ok (-x, rest)
    | ⟨.mark .minus, _⟩ :: ts => .error (p.missing ts .number)
    | ⟨.number x, _⟩ :: rest => .ok (x, rest)
    | _ => .error (p.missing ts .number)

/-- Takes a whole number; one beyond the 64-bit integers becomes the nearer end of their
range. -/
def wholeNumber : Reader Int64 := do
  let before ← ahead
  let x ← number
  let value := Decimal.Binary.ofFloat x
  if value.isWhole then pure value.toInt64
  else step fun p _ => .error (p.fault before (.notWhole x))

/-- Takes nothing, and refuses unless the line ends here. -/
def endOfLine : Reader Unit :=
  step fun p ts => if ts.isEmpty then .ok ((), ts) else .error (p.unexpected ts .endOfLine)

end Reader
end StageScript

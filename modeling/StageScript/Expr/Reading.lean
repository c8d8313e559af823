/-
# Reading an expression

    sum     = product (('+' | '-') product)*
    product = signed  (('*' | '/') signed)*
    signed  = '-' signed | primary
    primary = number | name | name '.' name | '(' sum ')'

Operators of one level group to the left, and a minus in front of a literal becomes its sign.
The two chains differ only in their operators and their operands, so they are one function over
a `Level`.

Each reader says in its type that it leaves fewer tokens than it met (`Shorter`); a chain calls
its operand on the same tokens at the level below, which is what `rank` measures.
-/
import StageScript.Expr
import StageScript.Reader
import StageScript.Token.Lexer

namespace StageScript
namespace Expr

/-! ## 1. Levels -/

/-- How tightly an operator binds. -/
inductive Level where
  | sum
  | product
  deriving DecidableEq, Repr

/-- The operator of a level that a mark stands for. -/
def Level.operator? : Level → Mark → Option Operator
  | .sum, .plus => some .add
  | .sum, .minus => some .sub
  | .product, .star => some .mul
  | .product, .slash => some .div
  | _, _ => none

/-- Chains of looser operators are read above those of tighter ones. -/
def Level.rank : Level → Nat
  | .sum => 4
  | .product => 2

/-! ## 2. The readers -/

/-- Takes the parenthesis that closes a group. -/
def closing (p : Place) (ts : List Token) : Except SyntaxError (Shorter ts) :=
  match ts with
  | ⟨.mark .rightParen, _⟩ :: _ => .ok .tail
  | ts => .error (p.missing ts (.mark .rightParen))

mutual

/-- An operand with its signs. -/
def signed (p : Place) (ts : List Token) : Except SyntaxError (Expr × Shorter ts) :=
  match ts with
  | ⟨.mark .minus, _⟩ :: ts =>
    match signed p ts with
    | .error e => .error e
    | .ok (e, rest) => .ok (e.negated, .behind rest)
  | ⟨.number x, _⟩ :: _ => .ok (.number x, .tail)
  | ⟨.word entity, _⟩ :: ⟨.mark .dot, _⟩ :: ⟨.word prop, _⟩ :: _ =>
    .ok (.property entity prop, .behind (.behind .tail))
  | ⟨.word _, _⟩ :: ⟨.mark .dot, _⟩ :: ts => .error (p.missing ts .identifier)
  | ⟨.word name, _⟩ :: _ => .ok (.var name, .tail)
  | ⟨.mark .leftParen, _⟩ :: ts =>
    match chain p .sum ts with
    | .error e => .error e
    | .ok (e, inner) =>
      match closing p inner.1 with
      | .error e => .error e
      | .ok rest => .ok (e, .behind (.upTo inner (.ofShorter rest)))
  | ts => .error (p.unexpected ts .expression)
termination_by 6 * ts.length
decreasing_by all_goals (simp only [List.length_cons, Level.rank]; omega)

/-- Operands of a level with its operators between them. -/
def chain (p : Place) (l : Level) (ts : List Token) : Except SyntaxError (Expr × Shorter ts) :=
  match operand p l ts with
  | .error e => .error e
  | .ok (left, rest) =>
    match chainTail p l left rest.1 with
    | .error e => .error e
    | .ok (e, more) => .ok (e, .upTo rest more)
termination_by 6 * ts.length + l.rank
decreasing_by
  · cases l <;> simp [Level.rank]
  · have := rest.2
    omega

/-- An operand of a level. -/
def operand (p : Place) (l : Level) (ts : List Token) : Except SyntaxError (Expr × Shorter ts) :=
  match l with
  | .sum => chain p .product ts
  | .product => signed p ts
termination_by 6 * ts.length + l.rank - 1
decreasing_by all_goals (simp [Level.rank])

/-- What follows the first operand of a chain. -/
def chainTail (p : Place) (l : Level) (left : Expr) (ts : List Token) :
    Except SyntaxError (Expr × NoLonger ts) :=
  match ts with
  | ⟨.mark m, _⟩ :: ts =>
    match l.operator? m with
    | none => .ok (left, .all)
    | some op =>
      match operand p l ts with
      | .error e => .error e
      | .ok (right, rest) =>
        match chainTail p l (.binary op left right) rest.1 with
        | .error e => .error e
        | .ok (e, more) => .ok (e, .ofShorter (.behind (.upTo rest more)))
  | _ => .ok (left, .all)
termination_by 6 * ts.length + 5
decreasing_by
  · cases l <;> simp only [List.length_cons, Level.rank] <;> omega
  · have := rest.2
    simp only [List.length_cons]
    omega

end

/-- Takes a whole expression. -/
def reader : Reader Expr :=
  Reader.step fun p ts => (chain p .sum ts).map fun (e, rest) => (e, rest.1)

/-- Takes a single operand, as the slots for one number do: it never takes an operator between
two operands, so that `10 -5` fills two slots. -/
def operandReader : Reader Expr :=
  Reader.step fun p ts => (signed p ts).map fun (e, rest) => (e, rest.1)

/-! ## 3. Texts -/

/-- The expression that a text is, in a line in which `base` bytes stand before it. -/
def ofText (line base : Nat) (cs : List Char) : Except SyntaxError Expr := do
  let lexed ← Token.lex line base cs
  let (e, _) ← (do let e ← reader; Reader.endOfLine; pure e : Reader Expr)
    ⟨line, base, lexed.stop⟩ lexed.tokens
  pure e

end Expr
end StageScript

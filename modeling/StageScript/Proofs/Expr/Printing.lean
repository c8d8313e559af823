/-
# Printed expressions are read back

An expression prints with parentheses around every operation, so its text is one operand, and the
grammar gives it the tree it was printed from.  Two trees have no text of their own and are left
out (`isCanonical`): a minus in front of a literal, which reads as the sign of the literal, and
literals that are no finite numbers.
-/
import StageScript.Proofs.Token.Spelling

namespace StageScript

open Token (Kind Spells isName)

/-! ## 1. Numbers -/

namespace Decimal

/-- The sign of a number. -/
def isNegative (x : Float) : Bool :=
  match Binary.ofFloat x with
  | .finite negative _ _ => negative
  | _ => false

/-- The tokens of a number: a minus is one of its own. -/
def spelling (x : Float) : List Kind :=
  if isNegative x then [.mark .minus, .number (-x)] else [.number x]

variable {x : Float}

theorem spells_plain (hx : x.isFinite = true) : Spells (plain x).toList (spelling x) := by
  obtain ⟨negative, m, q, hofFloat⟩ := isFinite_iff_ofFloat.mp hx
  obtain ⟨n, hchars, hnearest⟩ := exists_numeral hofFloat
  have hnegative : isNegative x = negative := by simp [isNegative, hofFloat]
  rw [spelling, hnegative, hchars]
  cases negative with
  | false =>
    have hnumeral := Spells.numeral n
    rwa [hnearest] at hnumeral
  | true =>
    have hnumeral := (Spells.numeral n).cons_mark (c := '-') rfl (by decide) (by decide)
    rwa [hnearest] at hnumeral

theorem Numeral.isBlank_of_mem {n : Numeral} {c : Char} (hc : c ∈ n.chars) :
    Text.isBlank c = false := by
  have hdigit (c : Char) (hc : c.isDigit = true) : Text.isBlank c = false :=
    (Token.ne_of_isWordChar (Token.isWordChar_of_isDigit hc)).1
  rw [chars, List.mem_append] at hc
  rcases hc with hc | hc
  · exact hdigit c (n.isDigit_whole c hc)
  · unfold tail at hc
    split_ifs at hc
    · simp at hc
    · rcases List.mem_cons.mp hc with rfl | hc
      · rfl
      · exact hdigit c (n.isDigit_fraction c hc)

theorem Numeral.solid_chars (n : Numeral) : Text.Solid n.chars :=
  Text.solid_of_forall (by simp [chars, n.whole_ne_nil]) fun _ => isBlank_of_mem

theorem solid_plain (hx : x.isFinite = true) : Text.Solid (plain x).toList := by
  obtain ⟨negative, m, q, hofFloat⟩ := isFinite_iff_ofFloat.mp hx
  obtain ⟨n, hchars, -⟩ := exists_numeral hofFloat
  rw [hchars]
  cases negative with
  | false => exact n.solid_chars
  | true => exact n.solid_chars.cons rfl

theorem spelling_ne_nil (x : Float) : spelling x ≠ [] := by
  unfold spelling
  split_ifs <;> simp

theorem head?_spelling_ne {m : Mark} (hm : m ≠ .minus) (x : Float) :
    (spelling x).head? ≠ some (.mark m) := by
  unfold spelling
  split_ifs
  · simpa using hm.symm
  · simp

theorem neg_neg_of_isFinite (hx : x.isFinite = true) : - -x = x := by
  obtain ⟨negative, m, q, hofFloat⟩ := isFinite_iff_ofFloat.mp hx
  exact neg_neg_of_ofFloat hofFloat

end Decimal

/-! ## 2. Expressions -/

namespace Expr

/-- A literal. -/
def isLiteral : Expr → Bool
  | number _ => true
  | _ => false

/-- The text of the expression is its own: its literals are finite, its names are names, and it
negates no literal. -/
def isCanonical : Expr → Bool
  | number x => x.isFinite
  | var name => isName name
  | property entity prop => isName entity && isName prop
  | neg e => !e.isLiteral && e.isCanonical
  | binary _ l r => l.isCanonical && r.isCanonical

/-- The tokens of a printed expression. -/
def spelling : Expr → List Kind
  | number x => Decimal.spelling x
  | var name => [.word name]
  | property entity prop => [.word entity, .mark .dot, .word prop]
  | neg e => .mark .minus :: e.spelling
  | binary op l r =>
    .mark .leftParen :: ((l.spelling ++ .mark op.mark :: r.spelling) ++ [.mark .rightParen])

theorem spelling_ne_nil (e : Expr) : e.spelling ≠ [] := by
  cases e with
  | number x => exact Decimal.spelling_ne_nil x
  | _ => simp [spelling]

theorem head?_spelling_ne_dot (e : Expr) : e.spelling.head? ≠ some (.mark .dot) := by
  cases e with
  | number x => exact Decimal.head?_spelling_ne (by decide) x
  | _ => simp [spelling]

variable {e : Expr}

theorem spells_symbol (op : Operator) : Spells op.symbol.toList [.mark op.mark] := by
  cases op <;> exact .mark rfl

/-- A printed expression is spelled by its tokens. -/
theorem spells_text (he : e.isCanonical = true) : Spells e.text.toList e.spelling := by
  induction e with
  | number x => exact Decimal.spells_plain he
  | var name => exact .name he
  | property entity prop =>
    rw [isCanonical, Bool.and_eq_true] at he
    exact .property he.1 he.2
  | neg e ih =>
    rw [isCanonical, Bool.and_eq_true] at he
    have hminus := (ih he.2).cons_mark (c := '-') rfl (by decide) (by decide)
    rwa [text, String.toList_append]
  | binary op l r ihl ihr =>
    rw [isCanonical, Bool.and_eq_true] at he
    have hgroup := ((ihl he.1).spaced ((spells_symbol op).spaced (ihr he.2))).group
    simpa [text, spelling, String.toList_append] using hgroup

theorem solid_text (he : e.isCanonical = true) : Text.Solid e.text.toList := by
  induction e with
  | number x => exact Decimal.solid_plain he
  | var name => exact Token.solid_of_isName he
  | property entity prop =>
    rw [isCanonical, Bool.and_eq_true] at he
    have hsolid := (Token.solid_of_isName he.1).append (Token.solid_of_isName he.2) ['.']
    simpa [text, String.toList_append] using hsolid
  | neg e ih =>
    rw [isCanonical, Bool.and_eq_true] at he
    rw [text, String.toList_append]
    exact (ih he.2).cons rfl
  | binary op l r ihl ihr =>
    have hbetween := Text.solid_between (c := '(') (d := ')') rfl rfl
      (l.text ++ " " ++ op.symbol ++ " " ++ r.text).toList
    simpa [text, String.toList_append] using hbetween

theorem Derives.chain {ks : List Kind} (h : Derives .signed ks e) (l : Level) :
    Derives (.chain l) ks e := by
  cases l with
  | product => exact .first h
  | sum => exact .first (.first (l := .product) h)

theorem Derives.operand {ks : List Kind} (h : Derives .signed ks e) (l : Level) :
    Derives l.operandSymbol ks e := by
  cases l with
  | product => exact h
  | sum => exact h.chain .product

/-- **A printed expression is an operand, and its tree is the expression.** -/
theorem derives_spelling (he : e.isCanonical = true) : Derives .signed e.spelling e := by
  induction e with
  | number x =>
    rw [isCanonical] at he
    rw [spelling, Decimal.spelling]
    split_ifs
    · have hminus := Derives.minusLiteral (.primary (.number (-x)))
      rwa [Decimal.neg_neg_of_isFinite he] at hminus
    · exact .primary (.number x)
  | var name => exact .primary (.var name)
  | property entity prop => exact .primary (.property entity prop)
  | neg e ih =>
    rw [isCanonical, Bool.and_eq_true] at he
    refine .minus (ih he.2) ?_
    rintro x rfl
    simp [isLiteral] at he
  | binary op l r ihl ihr =>
    rw [isCanonical, Bool.and_eq_true] at he
    have hmore := Derives.more ((ihl he.1).chain op.level) ((ihr he.2).operand op.level)
    refine .primary (.group ?_)
    cases hlevel : op.level with
    | sum =>
      rwa [hlevel] at hmore
    | product =>
      rw [hlevel] at hmore
      exact .first hmore

/-- **The text of an expression is read as the expression.** -/
theorem ofText_text (he : e.isCanonical = true) (line base : Nat) :
    ofText line base e.text.toList = .ok e := by
  obtain ⟨ts, hts, hlex⟩ := Token.lex_of_spells (spells_text he) line base
  refine ofText_eq_ok_iff.mpr ⟨_, hlex, ?_⟩
  rw [hts]
  exact (derives_spelling he).chain .sum

end Expr
end StageScript

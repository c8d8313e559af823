/-
# The expressions that are read

Reading returns only canonical expressions, apart from literals that are too large.  Each of the
three conditions has its own reason.  A name comes from a token, and the text of that token is a
name (`Token.isName_of_mem_kinds`).  A minus in front of a literal becomes its sign, so the grammar
has no rule that negates one.  The literals alone need a condition: a number with hundreds of
digits is read as infinite, and `inf` in its text would be a variable.

A canonical expression is read back from its own text, so these are all the expressions that a
script can contain and that printing keeps.
-/
import StageScript.Proofs.Expr.Printing
import StageScript.Proofs.Token.Coverage

namespace StageScript

open Token (Kind isName)

/-! ## 1. Words are names -/

namespace Token

theorem Spelled.isName {cs : List Char} {w : String} (h : Spelled cs (.word w)) :
    isName w = true := by
  cases h with
  | word hstart hall =>
    rw [Token.isName, String.toList_ofList, Bool.and_eq_true, List.all_eq_true]
    exact ⟨hstart, hall⟩

/-- The words among the tokens of a text are names. -/
theorem isName_of_mem_kinds {line base : Nat} {cs : List Char} {l : Line}
    (h : lex line base cs = .ok l) {w : String} (hw : .word w ∈ Expr.kinds l.tokens) :
    isName w = true := by
  obtain ⟨t, ht, hkind⟩ := List.mem_map.mp hw
  obtain ⟨before, behind, htokens⟩ := List.append_of_mem ht
  obtain ⟨-, span, -, -, -, hspelled, -⟩ := exists_span (lex_eq_ok_iff.mp h) htokens
  rw [hkind] at hspelled
  exact hspelled.isName

end Token

/-! ## 2. What the grammar derives -/

namespace Expr

/-- The literals of the expression are finite. -/
def hasFiniteLiterals : Expr → Bool
  | number x => x.isFinite
  | var _ | property _ _ => true
  | neg e => e.hasFiniteLiterals
  | binary _ l r => l.hasFiniteLiterals && r.hasFiniteLiterals

variable {e e' : Expr} {line base : Nat} {cs : List Char}

theorem hasFiniteLiterals_of_isCanonical (he : e.isCanonical = true) :
    e.hasFiniteLiterals = true := by
  induction e with
  | number x => exact he
  | var | property => rfl
  | neg e ih =>
    rw [isCanonical, Bool.and_eq_true] at he
    exact ih he.2
  | binary op l r ihl ihr =>
    rw [isCanonical, Bool.and_eq_true] at he
    rw [hasFiniteLiterals, ihl he.1, ihr he.2, Bool.and_self]

theorem isLiteral_eq_false (h : ∀ x, e ≠ .number x) : e.isLiteral = false := by
  cases e with
  | number x => exact absurd rfl (h x)
  | _ => rfl

/-- A phrase whose words are names has a canonical tree, unless a literal is not finite. -/
theorem Derives.isCanonical {s : Symbol} {ks : List Kind} (h : Derives s ks e)
    (hnames : ∀ w, .word w ∈ ks → isName w = true) (hfinite : e.hasFiniteLiterals = true) :
    e.isCanonical = true := by
  induction h with
  | number x => exact hfinite
  | var name => exact hnames name (by simp)
  | property entity prop =>
    rw [Expr.isCanonical, hnames entity (by simp), hnames prop (by simp), Bool.and_self]
  | group _ ih => exact ih (fun w hw => hnames w (by simp [hw])) hfinite
  | primary _ ih | first _ ih => exact ih hnames hfinite
  | minusLiteral _ _ => exact hfinite
  | minus _ hne ih =>
    rw [Expr.isCanonical, isLiteral_eq_false hne,
      ih (fun w hw => hnames w (by simp [hw])) hfinite]
    rfl
  | more _ _ ihl ihr =>
    rw [hasFiniteLiterals, Bool.and_eq_true] at hfinite
    rw [Expr.isCanonical, ihl (fun w hw => hnames w (by simp [hw])) hfinite.1,
      ihr (fun w hw => hnames w (by simp [hw])) hfinite.2, Bool.and_self]

/-! ## 3. Reading and printing -/

/-- What is read is canonical, unless a literal is not finite. -/
theorem isCanonical_of_ofText (h : ofText line base cs = .ok e)
    (hfinite : e.hasFiniteLiterals = true) : e.isCanonical = true := by
  obtain ⟨l, hlex, hd⟩ := ofText_eq_ok_iff.mp h
  exact hd.isCanonical (fun _ => Token.isName_of_mem_kinds hlex) hfinite

/-- Two canonical expressions with one text are the same. -/
theorem eq_of_text_eq (he : e.isCanonical = true) (he' : e'.isCanonical = true)
    (htext : e.text = e'.text) : e = e' := by
  have hread := ofText_text he 0 0
  rw [htext, ofText_text he' 0 0] at hread
  exact (Except.ok.inj hread).symm

/-- **Printed expressions are read back.**  The expressions that some text is read as and whose
literals are finite are the canonical ones.  The text of such an expression is read as this
expression, wherever it stands. -/
theorem printed_expressions_are_read_back (e : Expr) :
    ((∃ line base cs, ofText line base cs = .ok e) ∧ e.hasFiniteLiterals = true
        ↔ e.isCanonical = true)
      ∧ ∀ line base cs, ofText line base cs = .ok e → e.hasFiniteLiterals = true →
          ∀ line' base', ofText line' base' e.text.toList = .ok e := by
  refine ⟨⟨?_, fun he => ?_⟩, fun line base cs h hfinite => ?_⟩
  · rintro ⟨⟨line, base, cs, h⟩, hfinite⟩
    exact isCanonical_of_ofText h hfinite
  · exact ⟨⟨0, 0, _, ofText_text he 0 0⟩, hasFiniteLiterals_of_isCanonical he⟩
  · exact ofText_text (isCanonical_of_ofText h hfinite)

/-- Two signs in front of a difference, in which a zero has a sign of its own. -/
def doublyNegated : Expr :=
  .neg (.neg (.binary .sub (.number (-0)) (.binary .mul (.var "if") (.property "e" "x"))))

theorem printed_expressions_are_read_back_doublyNegated :
    doublyNegated.text = "--(-0 - (if * e.x))"
      ∧ (∃ line base cs, ofText line base cs = .ok doublyNegated)
      ∧ doublyNegated.hasFiniteLiterals = true
      ∧ ofText 1 0 doublyNegated.text.toList = .ok doublyNegated := by
  obtain ⟨⟨line, base, cs, h⟩, hfinite⟩ :=
    (printed_expressions_are_read_back doublyNegated).1.mpr (by decide +kernel)
  exact ⟨by decide +kernel, ⟨line, base, cs, h⟩, hfinite,
    (printed_expressions_are_read_back doublyNegated).2 line base cs h hfinite 1 0⟩

end Expr
end StageScript

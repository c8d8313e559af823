/-
# Expressions on both sides of the grammar

A text that is an expression may stand on the right of an assignment and behind `let`.  An
assignment cuts it out of the line and reads it again, which gives the same tokens and so the same
tree (`Token.Divides`).  Behind `let` it competes with the words that begin other declarations.

Three of these words ask for a quoted text or another word behind them.  In an expression only a
mark stands behind a name (`Derives.mark_behind`), so they are variables and entities there like
all other names.  The fourth, `spawn`, asks for anything at all: with a token behind it, it begins
a box (`OpensBox`).  Four operands behind it are meant as one even where they could also be read as
a sum (`IsBox`, as in `spawn -x -y -w -h`).  All other sums that go on behind `spawn`, like
`spawn + 1` and `spawn.x`, are refused, although `spawn` is a name as well.
-/
import StageScript.Proofs.Command.RoundTrip
import StageScript.Proofs.Token.Division

namespace StageScript

open Token (Kind isName)
open StageScript.Expr (kinds Derives exists_of_kinds_cons)

/-! ## 1. The tokens of an expression -/

namespace Expr

variable {s : Symbol} {ks : List Kind} {e : Expr}

theorem Derives.exists_cons (h : Derives s ks e) : ∃ k ks', ks = k :: ks' ∧ k ≠ .mark .dot := by
  induction h with
  | number | var | property | group => exact ⟨_, _, rfl, by simp⟩
  | minusLiteral | minus => exact ⟨_, _, rfl, by simp⟩
  | primary _ ih | first _ ih => exact ih
  | more _ _ ih _ =>
    obtain ⟨k, ks', rfl, hk⟩ := ih
    exact ⟨k, _, rfl, hk⟩

/-- What stands behind the first name of an expression is a mark. -/
theorem Derives.mark_behind (h : Derives s ks e) {w : String} {k : Kind} {more : List Kind}
    (hks : ks = .word w :: k :: more) : ∃ m, k = .mark m := by
  induction h generalizing more with
  | number | var | group | minusLiteral | minus => simp at hks
  | property entity prop => exact ⟨.dot, by simp_all⟩
  | primary _ ih | first _ ih => exact ih hks
  | @more op ks ks' e e' h h' ih _ =>
    obtain ⟨k', ks'', rfl, -⟩ := h.exists_cons
    cases ks'' with
    | nil => exact ⟨op.mark, by simp_all⟩
    | cons k'' ks'' =>
      rw [List.cons_append, List.cons_append, List.cons.injEq, List.cons.injEq] at hks
      obtain ⟨rfl, rfl, -⟩ := hks
      exact ih rfl

/-- No character outside the language is in an expression. -/
theorem Derives.ne_stray (h : Derives s ks e) : ∀ k ∈ ks, ∀ c, k ≠ .stray c := by
  induction h with
  | number | var | property => simp
  | group _ ih =>
    intro k hk
    rcases List.mem_append.mp hk with hk | hk
    · rcases List.mem_cons.mp hk with rfl | hk
      · simp
      · exact ih k hk
    · rw [List.mem_singleton.mp hk]
      simp
  | minusLiteral _ ih | minus _ _ ih => simpa using ih
  | primary _ ih | first _ ih => exact ih
  | more _ _ ih ih' =>
    intro k hk
    rcases List.mem_append.mp hk with hk | hk
    · exact ih k hk
    · rcases List.mem_cons.mp hk with rfl | hk
      · simp
      · exact ih' k hk

/-- The expression with other names in the place of its own. -/
def rename (f : String → String) : Expr → Expr
  | number x => number x
  | var name => var (f name)
  | property entity prop => property (f entity) (f prop)
  | neg inner => neg (inner.rename f)
  | binary op left right => binary op (left.rename f) (right.rename f)

end Expr

/-- The token with another name in the place of its own. -/
def Token.Kind.rename (f : String → String) : Kind → Kind
  | word name => word (f name)
  | k => k

/-- **All names are alike in an expression**, those of verbs included. -/
theorem Expr.Derives.rename {s : Symbol} {ks : List Kind} {e : Expr} (h : Derives s ks e)
    (f : String → String) : Derives s (ks.map (.rename f)) (e.rename f) := by
  induction h with
  | number x => exact .number x
  | var name => exact .var (f name)
  | property entity prop => exact .property (f entity) (f prop)
  | group _ ih =>
    rw [List.map_append, List.map_cons]
    exact .group ih
  | primary _ ih => exact .primary ih
  | minusLiteral _ ih => exact .minusLiteral ih
  | @minus ks e _ hne ih =>
    refine .minus ih fun x hx => ?_
    cases e with
    | number y => exact hne y rfl
    | _ => simp [Expr.rename] at hx
  | first _ ih => exact .first ih
  | @more op ks ks' e e' _ _ ih ih' =>
    rw [List.map_append, List.map_cons]
    exact .more ih ih'

namespace Command

open Reader

/-! ## 2. What is declared -/

/-- The word that begins a box, and something behind it. -/
def OpensBox (ks : List Kind) : Prop := ∃ k more, ks = .word "spawn" :: k :: more

/-- The word that begins a box, and four operands behind it. -/
def IsBox (ks : List Kind) (x y w h : Expr) : Prop :=
  ∃ k₁ k₂ k₃ k₄, ks = .word "spawn" :: (k₁ ++ (k₂ ++ (k₃ ++ k₄)))
    ∧ Derives .signed k₁ x ∧ Derives .signed k₂ y ∧ Derives .signed k₃ w ∧ Derives .signed k₄ h

variable {p : Place} {us : List Token} {ks : List Kind} {e : Expr}

theorem declaration_of_derives (h : Derives (.chain .sum) ks e) (hus : kinds us = ks)
    (hbox : ¬ OpensBox ks) : declaration p us = .ok (.number e, []) := by
  have hreader : (Declaration.number <$> Expr.reader) p us = .ok (.number e, []) := by
    have hread := reader_of_derives (p := p) h hus (Expr.Symbol.ends_nil _)
    rw [List.append_nil] at hread
    exact map_eq_ok hread Declaration.number
  rw [declaration, bind_ahead]
  split
  · rename_i w o next more
    obtain ⟨m, hm⟩ := h.mark_behind (w := w) hus.symm
    have hspawn : w ≠ "spawn" := by
      rintro rfl
      exact hbox ⟨_, _, hus.symm⟩
    simp only [hm, hspawn, if_false, and_false, Kind.isWord, Bool.false_eq_true]
    exact hreader
  · exact hreader

/-- An operand ends in front of another one. -/
theorem ends_of_derives {s : Expr.Symbol} (h : Derives s ks e) (hus : kinds us = ks)
    (rest : List Token) : Expr.Symbol.signed.Ends (us ++ rest) := by
  obtain ⟨k, ks', rfl, hk⟩ := h.exists_cons
  obtain ⟨o, vs, rfl, -⟩ := exists_of_kinds_cons hus
  refine Expr.Symbol.ends_cons fun m hm => ?_
  obtain rfl : m = .dot := by simpa [Expr.Symbol.continues] using hm
  exact hk

theorem box_of_derives {k₁ k₂ k₃ k₄ : List Kind} {x y w h : Expr} (hx : Derives .signed k₁ x)
    (hy : Derives .signed k₂ y) (hw : Derives .signed k₃ w) (hh : Derives .signed k₄ h)
    (hus : kinds us = k₁ ++ (k₂ ++ (k₃ ++ k₄))) : box p us = .ok (.box x y w h, []) := by
  obtain ⟨us₁, vs, rfl, h₁, hvs⟩ := List.map_eq_append_iff.mp hus
  obtain ⟨us₂, ws, rfl, h₂, hws⟩ := List.map_eq_append_iff.mp hvs
  obtain ⟨us₃, us₄, rfl, h₃, h₄⟩ := List.map_eq_append_iff.mp hws
  have hfirst := operandReader_of_derives (p := p) hx h₁ (ends_of_derives hy h₂ (us₃ ++ us₄))
  have hsecond := operandReader_of_derives (p := p) hy h₂ (ends_of_derives hw h₃ us₄)
  have hthird := operandReader_of_derives (p := p) hw h₃
    (ends_of_derives hh h₄ [])
  have hfourth := operandReader_of_derives (p := p) hh h₄ (Expr.Symbol.ends_nil _)
  rw [List.append_nil] at hthird hfourth
  simp only [box, Bind.bind, ReaderT.bind, StateT.bind, Except.bind, hfirst, hsecond, hthird,
    hfourth]
  rfl

theorem declaration_of_isBox {x y w h : Expr} (hbox : IsBox ks x y w h) (hus : kinds us = ks) :
    declaration p us = .ok (.box x y w h, []) := by
  obtain ⟨k₁, k₂, k₃, k₄, rfl, hx, hy, hw, hh⟩ := hbox
  obtain ⟨o, vs, rfl, hvs⟩ := exists_of_kinds_cons hus
  have hread := box_of_derives (p := p) hx hy hw hh hvs
  obtain ⟨k, k₁', rfl, -⟩ := hx.exists_cons
  obtain ⟨o', vs', rfl, -⟩ := exists_of_kinds_cons hvs
  rw [declaration, bind_ahead]
  exact hread

theorem takes_of_operandReader {rest : List Token} (h : Expr.operandReader p us = .ok (e, rest)) :
    Expr.Takes .signed us e rest := by
  simp only [Expr.operandReader, step] at h
  cases hs : Expr.signed p us with
  | error f => simp [hs, Except.map] at h
  | ok x =>
    rw [hs] at h
    obtain ⟨rfl, rfl⟩ := Prod.mk.inj (Except.ok.inj h)
    exact (Expr.soundOn p us).signed hs

/-- **A box takes four operands**, and nothing but these. -/
theorem exists_of_box {d : Declaration} {rest : List Token} (h : box p us = .ok (d, rest)) :
    ∃ x y w h' k₁ k₂ k₃ k₄, kinds us = k₁ ++ (k₂ ++ (k₃ ++ (k₄ ++ kinds rest)))
      ∧ Derives .signed k₁ x ∧ Derives .signed k₂ y ∧ Derives .signed k₃ w
      ∧ Derives .signed k₄ h' := by
  unfold box at h
  obtain ⟨x, vs, hx, h⟩ := bind_eq_ok h
  obtain ⟨y, ws, hy, h⟩ := bind_eq_ok h
  obtain ⟨w, xs, hw, h⟩ := bind_eq_ok h
  obtain ⟨h', ys, hh, h⟩ := bind_eq_ok h
  obtain ⟨-, rfl⟩ := Prod.mk.inj (Except.ok.inj h)
  obtain ⟨k₁, hk₁, hx⟩ := takes_of_operandReader hx
  obtain ⟨k₂, hk₂, hy⟩ := takes_of_operandReader hy
  obtain ⟨k₃, hk₃, hw⟩ := takes_of_operandReader hw
  obtain ⟨k₄, hk₄, hh⟩ := takes_of_operandReader hh
  exact ⟨x, y, w, h', k₁, k₂, k₃, k₄, by rw [hk₁, hk₂, hk₃, hk₄], hx, hy, hw, hh⟩

/-- What begins a box and is none leaves tokens that no declaration takes. -/
theorem rest_ne_nil_of_declaration {d : Declaration} {rest : List Token} (hopens : OpensBox ks)
    (hnot : ∀ x y w h, ¬ IsBox ks x y w h) (hus : kinds us = ks)
    (h : declaration p us = .ok (d, rest)) : rest ≠ [] := by
  rintro rfl
  obtain ⟨k, more, rfl⟩ := hopens
  obtain ⟨o, vs, rfl, hvs⟩ := exists_of_kinds_cons hus
  obtain ⟨o', ws, rfl, -⟩ := exists_of_kinds_cons hvs
  have hbox : box p (⟨k, o'⟩ :: ws) = .ok (d, []) := h
  obtain ⟨x, y, w, h', k₁, k₂, k₃, k₄, hks, hx, hy, hw, hh⟩ := exists_of_box hbox
  rw [Expr.kinds_nil, List.append_nil] at hks
  refine hnot x y w h' ⟨k₁, k₂, k₃, k₄, ?_, hx, hy, hw, hh⟩
  rw [← hks, hvs]

/-! ## 3. The line -/

theorem goesOn_declare {src : List Char} {n : String} {hn : isName n = true} :
    (form src).GoesOn [.name "let" (by decide), .name n hn, .equals]
      (Form.action <$> (Action.declare n <$> declaration)) :=
  GoesOn.of_verb rfl (by simp [Word.name]) <|
    ((takes_identifier hn).bind (takes_equals.bind (GoesOn.refl _))).map Form.action

/-- **An expression at the end of a line.**  A form that goes on behind some words is given the
tokens of the expression, and the rest of the line is a text with the same tokens.  The line is
what the form makes of them, if it leaves none. -/
theorem ofLine?_eq_of_goesOn {w : Word} {ws : List Word} {r : List Char → Reader Action}
    {cs : List Char} {l : Token.Line}
    (hform : ∀ src, (form src).GoesOn (w :: ws) (Form.action <$> r src))
    (hread : Token.lexFrom 0 cs = .ok l) (h : Derives (.chain .sum) (kinds l.tokens) e)
    (line : Nat) : ∃ src p us text, kinds us = kinds l.tokens ∧ remainder src p us = text
      ∧ text ≠ [] ∧ (∀ line base, Expr.ofText line base text = .ok e)
      ∧ ofLine? line ((Word.join w ws).text.toList ++ ' ' :: cs)
        = some ((r src p us).bind fun x => (endOfLine p x.2).map fun _ => act x.1) := by
  have hne : l.tokens ≠ [] := by
    intro hnil
    rw [hnil] at h
    obtain ⟨k, ks, hks, -⟩ := h.exists_cons
    simp at hks
  obtain ⟨src, ts, us, stop, text, htrim, hsolid, hts, hus, hlex, hrest, htext, hcore⟩ :=
    exists_line (Word.join w ws).spells (Word.join w ws).solid hread hne h.ne_stray line 0
  rw [Word.kinds_join] at hts
  refine ⟨src, ⟨line, 0, stop⟩, us, text, hus, hrest, htext, fun line' base' => ?_, ?_⟩
  · obtain ⟨l', hl', hkinds⟩ := hcore line' base'
    exact Expr.ofText_eq_ok_iff.mpr ⟨l', hl', hkinds ▸ h⟩
  · have hends := ends_of_derives h hus []
    rw [List.append_nil] at hends
    have hline := hform src ⟨line, 0, stop⟩ ts us hts hends
    have htokens : ts ++ us ≠ [] := by
      intro hnil
      rw [List.append_eq_nil_iff] at hnil
      rw [hnil.2] at hus
      exact hne (List.map_eq_nil_iff.mp hus.symm)
    have hcomment := Token.startsComment_of_lexFrom (Token.lex_eq_ok_iff.mp hlex) htokens
    rw [ofLine?_of_trim htrim hsolid.ne_nil hcomment, ofText]
    simp only [hlex, hline]
    cases hr : r src ⟨line, 0, stop⟩ us with
    | error f =>
      rw [map_eq_error hr]
      rfl
    | ok x =>
      obtain ⟨a, rest⟩ := x
      rw [map_eq_ok hr]
      rfl

/-- The text of an assignment to `n`, up to the equals sign. -/
theorem assignment_eq (n : String) (hn : isName n = true) (cs : List Char) :
    (n ++ " = ").toList ++ cs = (Word.join (.name n hn) [.equals]).text.toList ++ ' ' :: cs := by
  simp [Word.join, Word.spaced, Word.name, Word.equals, String.toList_append]

/-- The text of a declaration of `n`, up to the equals sign. -/
theorem declaration_eq (n : String) (hn : isName n = true) (cs : List Char) :
    ("let " ++ n ++ " = ").toList ++ cs
      = (Word.join (.name "let" (by decide)) [.name n hn, .equals]).text.toList ++ ' ' :: cs := by
  simp [Word.join, Word.spaced, Word.name, Word.equals, String.toList_append]

variable {n : String} {cs : List Char} {l : Token.Line}

theorem ofLine?_assign (hn : isName n = true) (hread : Token.lexFrom 0 cs = .ok l)
    (h : Derives (.chain .sum) (kinds l.tokens) e) (line : Nat) :
    ∃ text, ofLine? line ((n ++ " = ").toList ++ cs)
      = some (.ok (.act (.assign n ⟨text, .ok e⟩))) := by
  obtain ⟨src, p, us, text, -, hrest, hne, hcore, hline⟩ :=
    ofLine?_eq_of_goesOn (fun src => @goesOn_assign src n hn) hread h line
  have hassign := map_eq_ok (exprSource_of_ofText hrest hne (hcore _ _)) (Action.assign n)
  exact ⟨_, by rw [assignment_eq n hn, hline, hassign]; rfl⟩

theorem ofLine?_declare {d : Declaration} (hn : isName n = true)
    (hread : Token.lexFrom 0 cs = .ok l) (h : Derives (.chain .sum) (kinds l.tokens) e)
    (hd : ∀ p us, kinds us = kinds l.tokens → declaration p us = .ok (d, [])) (line : Nat) :
    ofLine? line (("let " ++ n ++ " = ").toList ++ cs) = some (.ok (.act (.declare n d))) := by
  obtain ⟨src, p, us, text, hus, -, -, -, hline⟩ :=
    ofLine?_eq_of_goesOn (fun src => @goesOn_declare src n hn) hread h line
  rw [declaration_eq n hn, hline, map_eq_ok (hd p us hus)]
  rfl

/-- A declaration that takes less than the line, or nothing, makes a line that is refused. -/
theorem exists_fault_of_declaration (hn : isName n = true)
    (hread : Token.lexFrom 0 cs = .ok l) (h : Derives (.chain .sum) (kinds l.tokens) e)
    (hd : ∀ p us d rest, kinds us = kinds l.tokens → declaration p us = .ok (d, rest) → rest ≠ [])
    (line : Nat) : ∃ f, ofLine? line (("let " ++ n ++ " = ").toList ++ cs) = some (.error f) := by
  obtain ⟨src, p, us, text, hus, -, -, -, hline⟩ :=
    ofLine?_eq_of_goesOn (fun src => @goesOn_declare src n hn) hread h line
  rw [declaration_eq n hn, hline]
  cases hr : declaration p us with
  | error f => exact ⟨f, by rw [map_eq_error hr]; rfl⟩
  | ok x =>
    obtain ⟨d, rest⟩ := x
    obtain ⟨u, rest, rfl⟩ := List.exists_cons_of_ne_nil (hd p us d rest hus hr)
    exact ⟨p.unexpected (u :: rest) .endOfLine, by rw [map_eq_ok hr]; rfl⟩

/-! ## 4. The same expression -/

/-- **A text that is an expression is the same expression on both sides.**  Let the text be read
as `e`.  An assignment of it keeps `e`.  Behind `let` it declares a number with `e`, unless it
begins with `spawn` and goes on: then four operands behind `spawn` declare a box, and the line is
refused where there are no four operands.  The names in the text may be any others, verbs
included: with other names it is `e` with these names. -/
theorem expressions_on_both_sides (hn : isName n = true) {line base : Nat}
    (hlex : Token.lex line base cs = .ok l) (hexpr : Expr.ofText line base cs = .ok e)
    (number : Nat) :
    (∃ text, ofLine? number ((n ++ " = ").toList ++ cs)
        = some (.ok (.act (.assign n ⟨text, .ok e⟩))))
      ∧ (¬ OpensBox (kinds l.tokens) →
          ofLine? number (("let " ++ n ++ " = ").toList ++ cs)
            = some (.ok (.act (.declare n (.number e)))))
      ∧ (∀ x y w h, IsBox (kinds l.tokens) x y w h →
          ofLine? number (("let " ++ n ++ " = ").toList ++ cs)
            = some (.ok (.act (.declare n (.box x y w h)))))
      ∧ (OpensBox (kinds l.tokens) → (∀ x y w h, ¬ IsBox (kinds l.tokens) x y w h) →
          ∃ f, ofLine? number (("let " ++ n ++ " = ").toList ++ cs) = some (.error f))
      ∧ ∀ (f : String → String) (cs' : List Char) (l' : Token.Line),
          Token.lex line base cs' = .ok l' →
          kinds l'.tokens = (kinds l.tokens).map (.rename f) →
          Expr.ofText line base cs' = .ok (e.rename f) := by
  have hread := Token.lex_eq_ok_iff.mp hlex
  obtain ⟨l', hl', h⟩ := Expr.ofText_eq_ok_iff.mp hexpr
  obtain rfl : l = l' := Except.ok.inj (hlex.symm.trans hl')
  refine ⟨ofLine?_assign hn hread h number, ?_, ?_, ?_, ?_⟩
  · intro hbox
    exact ofLine?_declare hn hread h (fun p us hus => declaration_of_derives h hus hbox) number
  · intro x y w h' hbox
    exact ofLine?_declare hn hread h (fun p us hus => declaration_of_isBox hbox hus) number
  · intro hopens hnot
    exact exists_fault_of_declaration hn hread h
      (fun p us d rest hus => rest_ne_nil_of_declaration hopens hnot hus) number
  · intro f cs' l' hl' hkinds
    exact Expr.ofText_eq_ok_iff.mpr ⟨l', hl', hkinds ▸ h.rename f⟩

/-- A name of a box and four operands, which may also be read as four differences. -/
def fourDifferences : List Char := "spawn -x -y -w -h".toList

theorem exists_lex_fourDifferences :
    ∃ l, Token.lex 1 0 fourDifferences = .ok l
      ∧ (∃ e, Derives (.chain .sum) (kinds l.tokens) e)
      ∧ IsBox (kinds l.tokens) (.neg (.var "x")) (.neg (.var "y")) (.neg (.var "w"))
          (.neg (.var "h")) := by
  have hminus (name : String) (h : isName name = true) :
      Token.Spells ('-' :: name.toList) [.mark .minus, .word name] :=
    (Token.Spells.name h).cons_mark rfl (by decide) (by decide)
  have hspawn : isName "spawn" = true := by decide
  have hspells := (Token.Spells.name hspawn).spaced <| (hminus "x" (by decide)).spaced <|
    (hminus "y" (by decide)).spaced <| (hminus "w" (by decide)).spaced (hminus "h" (by decide))
  obtain ⟨ts, hts, hlex⟩ := Token.lex_of_spells hspells 1 0
  have hvar (name : String) : Derives (.chain .product) [.word name] (.var name) :=
    .first (.primary (.var name))
  have hsub {ks : List Kind} {e : Expr} (h : Derives (.chain .sum) ks e) (name : String) :
      Derives (.chain .sum) (ks ++ [.mark .minus, .word name]) (.binary .sub e (.var name)) :=
    @Derives.more .sub ks _ e _ h (hvar name)
  have hneg (name : String) : Derives .signed [.mark .minus, .word name] (.neg (.var name)) :=
    .minus (.primary (.var name)) (by simp)
  have hsum := hsub (hsub (hsub (hsub (.first (hvar "spawn")) "x") "y") "w") "h"
  refine ⟨_, hlex, ⟨_, hts ▸ hsum⟩, ⟨_, _, _, _, ?_, hneg "x", hneg "y", hneg "w", hneg "h"⟩⟩
  exact hts

theorem expressions_on_both_sides_verbs :
    ofLine? 1 (("let " ++ "n" ++ " = ").toList ++ "random".toList)
        = some (.ok (.act (.declare "n" (.number (.var "random")))))
      ∧ Expr.ofText 1 0 "image".toList = .ok (.var "image")
      ∧ ofLine? 1 (("let " ++ "n" ++ " = ").toList ++ fourDifferences)
        = some (.ok (.act (.declare "n"
            (.box (.neg (.var "x")) (.neg (.var "y")) (.neg (.var "w")) (.neg (.var "h"))))))
      ∧ ∃ f, ofLine? 1 (("let " ++ "n" ++ " = ").toList ++ "spawn.x".toList)
        = some (.error f) := by
  have hrandom : isName "random" = true := by decide
  have himage : isName "image" = true := by decide
  obtain ⟨ts, hts, hlex⟩ := Token.lex_of_spells (Token.Spells.name hrandom) 1 0
  obtain ⟨us, hus, hlex'⟩ := Token.lex_of_spells (Token.Spells.name himage) 1 0
  have hexpr : Expr.ofText 1 0 "random".toList = .ok (.var "random") :=
    Expr.ofText_eq_ok_iff.mpr ⟨_, hlex, hts ▸ .first (.first (.primary (.var "random")))⟩
  have halone : ¬ OpensBox (kinds ts) := by
    rintro ⟨k, more, hks⟩
    simp [hts] at hks
  obtain ⟨-, hnumber, -, -, hrename⟩ :=
    expressions_on_both_sides (n := "n") (by decide) hlex hexpr 1
  obtain ⟨l, hlex'', ⟨e, hderives⟩, hbox⟩ := exists_lex_fourDifferences
  obtain ⟨-, -, hspawn, -⟩ := expressions_on_both_sides (n := "n") (by decide) hlex''
    (Expr.ofText_eq_ok_iff.mpr ⟨l, hlex'', hderives⟩) 1
  have hspawnName : isName "spawn" = true := by decide
  have hx : isName "x" = true := by decide
  obtain ⟨vs, hvs, hlex₃⟩ := Token.lex_of_spells (Token.Spells.property hspawnName hx) 1 0
  have hproperty : Expr.ofText 1 0 "spawn.x".toList = .ok (.property "spawn" "x") :=
    Expr.ofText_eq_ok_iff.mpr
      ⟨_, hlex₃, hvs ▸ .first (.first (.primary (.property "spawn" "x")))⟩
  obtain ⟨-, -, -, hrefused, -⟩ :=
    expressions_on_both_sides (n := "n") (by decide) hlex₃ hproperty 1
  refine ⟨hnumber halone, hrename (fun _ => "image") _ _ hlex' ?_, hspawn _ _ _ _ hbox,
    hrefused ⟨_, _, hvs⟩ ?_⟩
  · rw [hus, hts]
    rfl
  · -- no operand begins with the point
    rintro x y w h ⟨k₁, k₂, k₃, k₄, heq, hx, -⟩
    obtain ⟨k, k₁, rfl, hk⟩ := hx.exists_cons
    rw [hvs, List.cons.injEq] at heq
    exact hk (List.cons.inj heq.2).1.symm

/-- **A sum that begins with the name `spawn` is refused behind `let`**, although it is one. -/
theorem spawn_sum_is_refused :
    Expr.ofText 1 0 "spawn + 1".toList = .ok (.binary .add (.var "spawn") (.number 1))
      ∧ ∃ f, ofLine? 1 "let n = spawn + 1".toList = some (.error f) := by
  refine ⟨?_, exists_fault (by decide +kernel) (by decide +kernel)⟩
  have hsum : (Expr.ofText 1 0 "spawn + 1".toList).toOption
      = some (.binary .add (.var "spawn") (.number 1)) := by decide +kernel
  generalize Expr.ofText 1 0 "spawn + 1".toList = read at hsum ⊢
  cases read with
  | error f => simp [Except.toOption] at hsum
  | ok e => simpa [Except.toOption] using hsum

end Command
end StageScript

/-
# Two readings abreast

What a reader does with tokens depends on their kinds.  The place at which it reads only goes into
its faults, and a token outside the language is to it what the end of the line is: it takes neither.
So two readings of the same tokens run abreast, at whatever places they stand, and even if
characters outside the language follow the tokens in one of them (`Abreast`).  Both read the same,
or both refuse.

What is related is said by parameters.  `Abreast.faults` relates the faults of the two readings;
a second relation of faults is for those that an assignment keeps, because its right side is no
expression (`Action.Like`).

`Abreast.On` says of two readers that they run abreast.  It survives sequencing, so a form of the
language has it as soon as its parts have it (`Abreast.matches_form`).  One form is an exception:
`spawn` at the end of `let n = spawn` is a name, and with anything behind it the beginning of a box.
-/
import Mathlib.Tactic.SplitIfs
import StageScript.Proofs.Command.RoundTrip

namespace StageScript

/-- Takes an expression with nothing behind it. -/
def Expr.whole : Reader Expr := do
  let e ← reader
  Reader.endOfLine
  pure e

theorem Expr.ofText_eq_whole (line base : Nat) (cs : List Char) :
    ofText line base cs = (Token.lex line base cs).bind fun lexed =>
      (whole ⟨line, base, lexed.stop⟩ lexed.tokens).map Prod.fst := by
  unfold ofText
  cases Token.lex line base cs with
  | error e => rfl
  | ok lexed =>
    show (whole ⟨line, base, lexed.stop⟩ lexed.tokens).bind _
      = (whole ⟨line, base, lexed.stop⟩ lexed.tokens).map _
    cases whole ⟨line, base, lexed.stop⟩ lexed.tokens <;> rfl

/-! ## 1. Outcomes -/

/-- Two places at which the same tokens are read, with tokens outside the language behind them in
the second reading, and the faults of the two readings that correspond. -/
structure Abreast where
  here : Place
  there : Place
  extra : List Token
  faults : SyntaxError → SyntaxError → Prop
  stray : ∀ t ∈ extra, ∃ c, t.kind = .stray c
  unexpected : ∀ ts e, faults (here.unexpected ts e) (there.unexpected (ts ++ extra) e)
  missing : ∀ ts e, faults (here.missing ts e) (there.missing (ts ++ extra) e)
  notWhole : ∀ ts x, faults (here.fault ts (.notWhole x)) (there.fault (ts ++ extra) (.notWhole x))

namespace Abreast

variable (A : Abreast) {α β γ δ : Type}

/-- Both readings refuse with faults that correspond, or both have results, which are related. -/
inductive Matches (R : α → β → Prop) : Except SyntaxError α → Except SyntaxError β → Prop
  | ok {x : α} {y : β} (h : R x y) : Matches R (.ok x) (.ok y)
  | error {e f : SyntaxError} (h : A.faults e f) : Matches R (.error e) (.error f)

variable {A}

theorem Matches.map {R : α → β → Prop} {S : γ → δ → Prop} {x : Except SyntaxError α}
    {y : Except SyntaxError β} {f : α → γ} {g : β → δ} (h : A.Matches R x y)
    (hfg : ∀ a b, R a b → S (f a) (g b)) : A.Matches S (x.map f) (y.map g) := by
  cases h with
  | ok h => exact .ok (hfg _ _ h)
  | error h => exact .error h

theorem Matches.mono {R S : α → β → Prop} {x : Except SyntaxError α} {y : Except SyntaxError β}
    (h : A.Matches R x y) (hRS : ∀ a b, R a b → S a b) : A.Matches S x y := by
  cases h with
  | ok h => exact .ok (hRS _ _ h)
  | error h => exact .error h

/-- A token of the language is met by both readings or by neither. -/
theorem exists_cons (A : Abreast) {ts us : List Token} {t : Token} (h : ts ++ A.extra = t :: us)
    (ht : ∀ c, t.kind ≠ .stray c) : ∃ us', ts = t :: us' ∧ us = us' ++ A.extra := by
  cases ts with
  | nil =>
    obtain ⟨c, hc⟩ := A.stray t (by rw [← List.nil_append A.extra, h]; exact List.mem_cons_self)
    exact absurd hc (ht c)
  | cons u ts =>
    obtain ⟨rfl, rfl⟩ := List.cons.inj h
    exact ⟨ts, rfl, rfl⟩

/-! ## 2. Expressions -/

section Expressions

open StageScript.Expr (signed chain operand chainTail closing)

variable {ts : List Token}

/-- The same tree, and behind the tokens that are left those of the second reading. -/
def SameTree (A : Abreast) {P Q : List Token → Prop} (x : Expr × Subtype P)
    (y : Expr × Subtype Q) : Prop :=
  y.1 = x.1 ∧ y.2.1 = x.2.1 ++ A.extra

/-- The readers of expressions run abreast on these tokens. -/
structure OnExprs (A : Abreast) (ts : List Token) : Prop where
  signed : A.Matches A.SameTree (signed A.here ts) (signed A.there (ts ++ A.extra))
  chain : ∀ l, A.Matches A.SameTree (chain A.here l ts) (chain A.there l (ts ++ A.extra))
  chainTail : ∀ l left,
    A.Matches A.SameTree (chainTail A.here l left ts) (chainTail A.there l left (ts ++ A.extra))

theorem OnExprs.operand (h : A.OnExprs ts) (l : Expr.Level) :
    A.Matches A.SameTree (operand A.here l ts) (operand A.there l (ts ++ A.extra)) := by
  cases l with
  | sum => simpa only [Expr.operand] using h.chain .product
  | product => simpa only [Expr.operand] using h.signed

theorem matches_closing (ts : List Token) :
    A.Matches (fun x y => y.1 = x.1 ++ A.extra) (closing A.here ts)
      (closing A.there (ts ++ A.extra)) := by
  by_cases hparen : ∃ o us, ts = ⟨.mark .rightParen, o⟩ :: us
  · obtain ⟨o, us, rfl⟩ := hparen
    exact .ok rfl
  · rw [Expr.closing.eq_2, Expr.closing.eq_2]
    · exact .error (A.missing ts _)
    · intro o us h
      obtain ⟨us', rfl, -⟩ := A.exists_cons h (by simp)
      exact hparen ⟨o, us', rfl⟩
    · intro o us h
      exact hparen ⟨o, us, h⟩

/-- An operand with a minus in front of it. -/
theorem matches_minus {o : Nat} (h : A.OnExprs ts) :
    A.Matches A.SameTree (signed A.here (⟨.mark .minus, o⟩ :: ts))
      (signed A.there (⟨.mark .minus, o⟩ :: (ts ++ A.extra))) := by
  rw [Expr.signed.eq_1, Expr.signed.eq_1]
  have hsigned := h.signed
  generalize signed A.here ts = x at hsigned ⊢
  generalize signed A.there (ts ++ A.extra) = y at hsigned ⊢
  cases hsigned with
  | ok h => exact .ok ⟨congrArg Expr.negated h.1, h.2⟩
  | error h => exact .error h

/-- A sum between parentheses. -/
theorem matches_group {o : Nat} (h : A.OnExprs ts) :
    A.Matches A.SameTree (signed A.here (⟨.mark .leftParen, o⟩ :: ts))
      (signed A.there (⟨.mark .leftParen, o⟩ :: (ts ++ A.extra))) := by
  rw [Expr.signed.eq_6, Expr.signed.eq_6]
  have hsum := h.chain .sum
  generalize chain A.here .sum ts = x at hsum ⊢
  generalize chain A.there .sum (ts ++ A.extra) = y at hsum ⊢
  cases hsum with
  | error h => exact .error h
  | @ok x y h =>
    obtain ⟨e, us, hus⟩ := x
    obtain ⟨e', us', hus'⟩ := y
    obtain ⟨rfl, rfl⟩ : e' = e ∧ us' = us ++ A.extra := h
    have hclosing := matches_closing (A := A) us
    dsimp only
    generalize closing A.here us = z at hclosing ⊢
    generalize closing A.there (us ++ A.extra) = z' at hclosing ⊢
    cases hclosing with
    | ok h => exact .ok ⟨rfl, h⟩
    | error h => exact .error h

/-- A name, with a property behind it or not. -/
theorem matches_name (name : String) (o : Nat) (ts : List Token) :
    A.Matches A.SameTree (signed A.here (⟨.word name, o⟩ :: ts))
      (signed A.there (⟨.word name, o⟩ :: (ts ++ A.extra))) := by
  by_cases hdot : ∃ o₁ us, ts = ⟨.mark .dot, o₁⟩ :: us
  · obtain ⟨o₁, us, rfl⟩ := hdot
    by_cases hprop : ∃ prop o₂ vs, us = ⟨.word prop, o₂⟩ :: vs
    · obtain ⟨prop, o₂, vs, rfl⟩ := hprop
      rw [List.cons_append, List.cons_append, Expr.signed.eq_3, Expr.signed.eq_3]
      exact .ok ⟨rfl, rfl⟩
    · rw [List.cons_append, Expr.signed.eq_4, Expr.signed.eq_4]
      · exact .error (A.missing us _)
      · intro prop o₂ vs h
        obtain ⟨vs', rfl, -⟩ := A.exists_cons h (by simp)
        exact hprop ⟨prop, o₂, vs', rfl⟩
      · intro prop o₂ vs h
        exact hprop ⟨prop, o₂, vs, h⟩
  · have hvar {us : List Token} (h : ¬ ∃ o₁ vs, us = ⟨.mark .dot, o₁⟩ :: vs) (p : Place) :
        signed p (⟨.word name, o⟩ :: us) = .ok (.var name, .tail) :=
      Expr.signed.eq_5 _ _ _ _ (fun o₁ prop o₂ vs hus => h ⟨o₁, _, hus⟩) fun o₁ vs hus =>
        h ⟨o₁, vs, hus⟩
    have hdot' : ¬ ∃ o₁ us, ts ++ A.extra = ⟨.mark .dot, o₁⟩ :: us := by
      rintro ⟨o₁, us, h⟩
      obtain ⟨us', rfl, -⟩ := A.exists_cons h (by simp)
      exact hdot ⟨o₁, us', rfl⟩
    rw [hvar hdot, hvar hdot']
    exact .ok ⟨rfl, rfl⟩

/-- What begins no operand is refused. -/
theorem signed_of_forall {p : Place}
    (h : ∀ k o us, ts = ⟨k, o⟩ :: us → k ≠ .mark .minus ∧ (∀ x, k ≠ .number x)
      ∧ (∀ name, k ≠ .word name) ∧ k ≠ .mark .leftParen) :
    signed p ts = .error (p.unexpected ts .expression) :=
  Expr.signed.eq_7 p ts (fun o us heq => (h _ o us heq).1 rfl)
    (fun x o us heq => (h _ o us heq).2.1 x rfl)
    (fun name o _ _ _ _ heq => (h _ o _ heq).2.2.1 name rfl)
    (fun name o _ _ heq => (h _ o _ heq).2.2.1 name rfl)
    (fun name o us heq => (h _ o us heq).2.2.1 name rfl)
    (fun o us heq => (h _ o us heq).2.2.2 rfl)

theorem matches_signed (ih : ∀ us : List Token, us.length < ts.length → A.OnExprs us) :
    A.Matches A.SameTree (signed A.here ts) (signed A.there (ts ++ A.extra)) := by
  by_cases hminus : ∃ o us, ts = ⟨.mark .minus, o⟩ :: us
  · obtain ⟨o, us, rfl⟩ := hminus
    exact matches_minus (ih us (by simp))
  by_cases hnumber : ∃ x o us, ts = ⟨.number x, o⟩ :: us
  · obtain ⟨x, o, us, rfl⟩ := hnumber
    rw [List.cons_append, Expr.signed.eq_2, Expr.signed.eq_2]
    exact .ok ⟨rfl, rfl⟩
  by_cases hname : ∃ name o us, ts = ⟨.word name, o⟩ :: us
  · obtain ⟨name, o, us, rfl⟩ := hname
    exact matches_name name o us
  by_cases hgroup : ∃ o us, ts = ⟨.mark .leftParen, o⟩ :: us
  · obtain ⟨o, us, rfl⟩ := hgroup
    exact matches_group (ih us (by simp))
  have hnone : ∀ k o us, ts = ⟨k, o⟩ :: us → k ≠ .mark .minus ∧ (∀ x, k ≠ .number x)
      ∧ (∀ name, k ≠ .word name) ∧ k ≠ .mark .leftParen := by
    rintro k o us rfl
    refine ⟨?_, ?_, ?_, ?_⟩
    · rintro rfl
      exact hminus ⟨o, us, rfl⟩
    · rintro x rfl
      exact hnumber ⟨x, o, us, rfl⟩
    · rintro name rfl
      exact hname ⟨name, o, us, rfl⟩
    · rintro rfl
      exact hgroup ⟨o, us, rfl⟩
  rw [signed_of_forall hnone, signed_of_forall]
  · exact .error (A.unexpected ts _)
  · intro k o us h
    by_cases hstray : ∃ c, k = .stray c
    · obtain ⟨c, rfl⟩ := hstray
      simp
    · obtain ⟨us', hts, -⟩ := A.exists_cons h fun c hc => hstray ⟨c, hc⟩
      exact hnone k o us' hts

theorem matches_chain (ih : ∀ us : List Token, us.length < ts.length → A.OnExprs us)
    {l : Expr.Level}
    (hoperand : A.Matches A.SameTree (operand A.here l ts) (operand A.there l (ts ++ A.extra))) :
    A.Matches A.SameTree (chain A.here l ts) (chain A.there l (ts ++ A.extra)) := by
  rw [Expr.chain, Expr.chain]
  generalize operand A.here l ts = x at hoperand ⊢
  generalize operand A.there l (ts ++ A.extra) = y at hoperand ⊢
  cases hoperand with
  | error h => exact .error h
  | @ok x y h =>
    obtain ⟨left, us, hus⟩ := x
    obtain ⟨left', us', hus'⟩ := y
    obtain ⟨rfl, rfl⟩ : left' = left ∧ us' = us ++ A.extra := h
    have htail := (ih us hus).chainTail l left'
    dsimp only
    generalize chainTail A.here l left' us = z at htail ⊢
    generalize chainTail A.there l left' (us ++ A.extra) = z' at htail ⊢
    cases htail with
    | ok h => exact .ok h
    | error h => exact .error h

theorem matches_chainTail (ih : ∀ us : List Token, us.length < ts.length → A.OnExprs us)
    (l : Expr.Level) (left : Expr) :
    A.Matches A.SameTree (chainTail A.here l left ts)
      (chainTail A.there l left (ts ++ A.extra)) := by
  by_cases hmark : ∃ m o us, ts = ⟨.mark m, o⟩ :: us
  · obtain ⟨m, o, us, rfl⟩ := hmark
    rw [List.cons_append, Expr.chainTail.eq_def, Expr.chainTail.eq_def A.there]
    dsimp only
    cases l.operator? m with
    | none => exact .ok ⟨rfl, rfl⟩
    | some op =>
      have hoperand := (ih us (by simp)).operand l
      dsimp only
      generalize operand A.here l us = x at hoperand ⊢
      generalize operand A.there l (us ++ A.extra) = y at hoperand ⊢
      cases hoperand with
      | error h => exact .error h
      | @ok x y h =>
        obtain ⟨right, vs, hvs⟩ := x
        obtain ⟨right', vs', hvs'⟩ := y
        obtain ⟨rfl, rfl⟩ : right' = right ∧ vs' = vs ++ A.extra := h
        have htail := (ih vs (Nat.lt_succ_of_lt hvs)).chainTail l (.binary op left right')
        dsimp only
        generalize chainTail A.here l (.binary op left right') vs = z at htail ⊢
        generalize chainTail A.there l (.binary op left right') (vs ++ A.extra) = z' at htail ⊢
        cases htail with
        | ok h => exact .ok h
        | error h => exact .error h
  · have hends {us : List Token} (h : ¬ ∃ m o vs, us = ⟨.mark m, o⟩ :: vs) :
        (Expr.Symbol.chain l).Ends us := by
      intro m _ hm
      obtain ⟨⟨k, o⟩, hhead, rfl⟩ := Option.map_eq_some_iff.mp hm
      obtain ⟨vs, rfl⟩ := List.head?_eq_some_iff.mp hhead
      exact h ⟨m, o, vs, rfl⟩
    have hmark' : ¬ ∃ m o us, ts ++ A.extra = ⟨.mark m, o⟩ :: us := by
      rintro ⟨m, o, us, h⟩
      obtain ⟨us', rfl, -⟩ := A.exists_cons h (by simp)
      exact hmark ⟨m, o, us', rfl⟩
    rw [Expr.chainTail_of_ends (hends hmark), Expr.chainTail_of_ends (hends hmark')]
    exact .ok ⟨rfl, rfl⟩

/-- **The readers of expressions run abreast.** -/
theorem onExprs (A : Abreast) (ts : List Token) : A.OnExprs ts := by
  -- induction on the number of tokens; at the same tokens, from the tighter level to the looser
  induction hlength : ts.length using Nat.strongRecOn generalizing ts with
  | ind k ih =>
    subst hlength
    have ih : ∀ us : List Token, us.length < ts.length → A.OnExprs us :=
      fun us hus => ih _ hus us rfl
    have hsigned := matches_signed ih
    have hproduct := matches_chain (l := .product) ih (by rwa [operand, operand])
    have hsum := matches_chain (l := .sum) ih (by rwa [operand, operand])
    refine ⟨hsigned, ?_, matches_chainTail ih⟩
    intro l
    cases l with
    | sum => exact hsum
    | product => exact hproduct

end Expressions

/-! ## 3. Readers -/

section Readers

open Reader

/-- The readers run abreast, and their results with the tokens that are left are related. -/
def On (A : Abreast) (R : α × List Token → β × List Token → Prop) (r : Reader α) (s : Reader β) :
    Prop :=
  ∀ ts, A.Matches R (r A.here ts) (s A.there (ts ++ A.extra))

/-- What is read is related, and behind the tokens that are left those of the second reading are. -/
def Both (A : Abreast) (X : α → β → Prop) (x : α × List Token) (y : β × List Token) : Prop :=
  X x.1 y.1 ∧ y.2 = x.2 ++ A.extra

/-- The reader reads the same in both readings. -/
def Steady (A : Abreast) (r : Reader α) : Prop := A.On (A.Both Eq) r r

variable {r : Reader α} {s : Reader β} {X : α → β → Prop}

theorem matches_bind {R : γ × List Token → δ × List Token → Prop} {k : α → Reader γ}
    {l : β → Reader δ} {ts : List Token}
    (h : A.Matches (A.Both X) (r A.here ts) (s A.there (ts ++ A.extra)))
    (hk : ∀ x y us, r A.here ts = .ok (x, us) → X x y →
      A.Matches R (k x A.here us) (l y A.there (us ++ A.extra))) :
    A.Matches R ((r >>= k) A.here ts) ((s >>= l) A.there (ts ++ A.extra)) := by
  have hbind : (r >>= k) A.here ts = (r A.here ts).bind fun x => k x.1 A.here x.2 := rfl
  have hbind' : (s >>= l) A.there (ts ++ A.extra)
      = (s A.there (ts ++ A.extra)).bind fun y => l y.1 A.there y.2 := rfl
  rw [hbind, hbind']
  generalize hr : r A.here ts = x at h hk ⊢
  generalize s A.there (ts ++ A.extra) = y at h ⊢
  cases h with
  | error h => exact .error h
  | @ok x y h =>
    obtain ⟨x, us⟩ := x
    obtain ⟨y, vs⟩ := y
    obtain ⟨hxy, rfl⟩ : X x y ∧ vs = us ++ A.extra := h
    exact hk x y us rfl hxy

theorem On.bind {R : γ × List Token → δ × List Token → Prop} {k : α → Reader γ} {l : β → Reader δ}
    (h : A.On (A.Both X) r s) (hk : ∀ x y, X x y → A.On R (k x) (l y)) :
    A.On R (r >>= k) (s >>= l) :=
  fun ts => matches_bind (h ts) fun x y us _ hxy => hk x y hxy us

/-- A steady reader in front of two that run abreast. -/
theorem Steady.bind {R : γ × List Token → δ × List Token → Prop} {k : α → Reader γ}
    {l : α → Reader δ} (h : A.Steady r) (hk : ∀ x, A.On R (k x) (l x)) :
    A.On R (r >>= k) (r >>= l) :=
  On.bind h fun x _ hxy => hxy ▸ hk x

theorem matches_map {R : α × List Token → β × List Token → Prop}
    {S : γ × List Token → δ × List Token → Prop} {f : α → γ} {g : β → δ} {ts : List Token}
    (h : A.Matches R (r A.here ts) (s A.there (ts ++ A.extra)))
    (hfg : ∀ x y us vs, R (x, us) (y, vs) → S (f x, us) (g y, vs)) :
    A.Matches S ((f <$> r) A.here ts) ((g <$> s) A.there (ts ++ A.extra)) := by
  have hmap {α γ : Type} (f : α → γ) (r : Reader α) (p : Place) (ts : List Token) :
      (f <$> r) p ts = (r p ts).map fun x => (f x.1, x.2) := by
    show (r p ts).bind _ = _
    cases r p ts <;> rfl
  rw [hmap, hmap]
  exact h.map fun x y => hfg x.1 y.1 x.2 y.2

theorem On.map {R : α × List Token → β × List Token → Prop}
    {S : γ × List Token → δ × List Token → Prop} {f : α → γ} {g : β → δ} (h : A.On R r s)
    (hfg : ∀ x y us vs, R (x, us) (y, vs) → S (f x, us) (g y, vs)) :
    A.On S (f <$> r) (g <$> s) :=
  fun ts => matches_map (h ts) hfg

/-- The results are related, and nothing is left in either reading. -/
def Taken (X : α → β → Prop) (x : α × List Token) (y : β × List Token) : Prop :=
  X x.1 y.1 ∧ x.2 = [] ∧ y.2 = []

theorem On.both_map {Y : γ → δ → Prop} {f : α → γ} {g : β → δ} (h : A.On (A.Both X) r s)
    (hfg : ∀ x y, X x y → Y (f x) (g y)) : A.On (A.Both Y) (f <$> r) (g <$> s) :=
  h.map fun x y _ _ hxy => ⟨hfg x y hxy.1, hxy.2⟩

theorem On.taken_map {Y : γ → δ → Prop} {f : α → γ} {g : β → δ} (h : A.On (Taken X) r s)
    (hfg : ∀ x y, X x y → Y (f x) (g y)) : A.On (Taken Y) (f <$> r) (g <$> s) :=
  h.map fun x y _ _ hxy => ⟨hfg x y hxy.1, hxy.2⟩

theorem Steady.map {Y : γ → δ → Prop} {f : α → γ} {g : α → δ} (h : A.Steady r)
    (hfg : ∀ x, Y (f x) (g x)) : A.On (A.Both Y) (f <$> r) (g <$> r) :=
  h.both_map fun x _ hxy => hxy ▸ hfg x

theorem on_pure {x : α} {y : β} (h : X x y) : A.On (A.Both X) (pure x) (pure y) :=
  fun _ => .ok ⟨h, rfl⟩

theorem steady_pure (x : α) : A.Steady (pure x : Reader α) := on_pure rfl

theorem on_unexpected {R : α × List Token → β × List Token → Prop} (e : SyntaxError.Expected) :
    A.On R (Reader.unexpected e) (Reader.unexpected e) :=
  fun ts => .error (A.unexpected ts e)

theorem on_missing {R : α × List Token → β × List Token → Prop} (e : SyntaxError.Expected) :
    A.On R (Reader.missing e) (Reader.missing e) :=
  fun ts => .error (A.missing ts e)

/-- The tokens that are left are the same but for those of the second reading. -/
theorem on_ahead : A.On (A.Both fun us vs => vs = us ++ A.extra) ahead ahead :=
  fun _ => .ok ⟨rfl, rfl⟩

theorem steady_takesWord (w : String) : A.Steady (takesWord w) := by
  intro ts
  by_cases hw : ∃ o us, ts = ⟨.word w, o⟩ :: us
  · obtain ⟨o, us, rfl⟩ := hw
    have htakes (p : Place) (us : List Token) :
        takesWord w p (⟨.word w, o⟩ :: us) = .ok (true, us) :=
      congrArg Except.ok (if_pos (beq_self_eq_true w))
    rw [List.cons_append, htakes, htakes]
    exact .ok ⟨rfl, rfl⟩
  · have hleaves {us : List Token} (h : ¬ ∃ o vs, us = ⟨.word w, o⟩ :: vs) (p : Place) :
        takesWord w p us = .ok (false, us) := by
      rcases us with _ | ⟨⟨k, o⟩, us⟩
      · rfl
      · refine congrArg Except.ok (if_neg fun hk => h ?_)
        cases k <;> simp_all [Token.Kind.isWord]
    have hw' : ¬ ∃ o us, ts ++ A.extra = ⟨.word w, o⟩ :: us := by
      rintro ⟨o, us, h⟩
      obtain ⟨us', rfl, -⟩ := A.exists_cons h (by simp)
      exact hw ⟨o, us', rfl⟩
    rw [hleaves hw, hleaves hw']
    exact .ok ⟨rfl, rfl⟩

theorem steady_word (w : String) : A.Steady (word w) := by
  refine (steady_takesWord w).bind ?_
  intro taken
  cases taken with
  | true => exact steady_pure ()
  | false => exact on_missing _

/-- A reader that takes one token of some kinds, and asks for it where it is missing. -/
theorem steady_of_kind (takes : Token.Kind → α → Prop) (e : SyntaxError.Expected)
    (hstray : ∀ c x, ¬ takes (.stray c) x)
    (hok : ∀ k x, takes k x → ∀ p o us, r p (⟨k, o⟩ :: us) = .ok (x, us))
    (hmissing : ∀ p us, (∀ k o vs x, us = ⟨k, o⟩ :: vs → ¬ takes k x) →
      r p us = .error (p.missing us e)) : A.Steady r := by
  intro ts
  by_cases htakes : ∃ k o us x, ts = ⟨k, o⟩ :: us ∧ takes k x
  · obtain ⟨k, o, us, x, rfl, hx⟩ := htakes
    rw [List.cons_append, hok k x hx, hok k x hx]
    exact .ok ⟨rfl, rfl⟩
  · rw [hmissing A.here ts fun k o us x hts hx => htakes ⟨k, o, us, x, hts, hx⟩, hmissing]
    · exact .error (A.missing ts e)
    · intro k o us x hts hx
      by_cases hc : ∃ c, k = .stray c
      · obtain ⟨c, rfl⟩ := hc
        exact hstray c x hx
      · obtain ⟨us', rfl, -⟩ := A.exists_cons hts fun c hk => hc ⟨c, hk⟩
        exact htakes ⟨k, o, us', x, rfl, hx⟩

theorem steady_mark (m : Mark) : A.Steady (mark m) := by
  refine steady_of_kind (fun k _ => k = .mark m) (.mark m) (by simp) ?_ ?_
  · rintro k x rfl p o us
    simp [mark, step]
  · intro p us hno
    rcases us with _ | ⟨⟨k, o⟩, us⟩
    · rfl
    · cases k with
      | mark m' =>
        have hm : m' ≠ m := fun hm => hno _ o us () rfl (congrArg Token.Kind.mark hm)
        simp [mark, step, hm]
      | _ => rfl

theorem steady_identifier : A.Steady identifier := by
  refine steady_of_kind (fun k x => k = .word x) .identifier (by simp) ?_ ?_
  · rintro k x rfl p o us
    rfl
  · intro p us hno
    rcases us with _ | ⟨⟨k, o⟩, us⟩
    · rfl
    · cases k with
      | word n => exact absurd rfl (hno _ o us n rfl)
      | _ => rfl

theorem steady_textLiteral : A.Steady textLiteral := by
  refine steady_of_kind (fun k x => k = .text x) .textLiteral (by simp) ?_ ?_
  · rintro k x rfl p o us
    rfl
  · intro p us hno
    rcases us with _ | ⟨⟨k, o⟩, us⟩
    · rfl
    · cases k with
      | text t => exact absurd rfl (hno _ o us t rfl)
      | _ => rfl

theorem steady_color : A.Steady color := by
  refine steady_of_kind (fun k x => k = .hex x ∨ k = .word x) .color (by simp) ?_ ?_
  · rintro k x (rfl | rfl) p o us
    · rfl
    · rfl
  · intro p us hno
    rcases us with _ | ⟨⟨k, o⟩, us⟩
    · rfl
    · cases k with
      | hex c => exact absurd (.inl rfl) (hno _ o us c rfl)
      | word c => exact absurd (.inr rfl) (hno _ o us c rfl)
      | _ => rfl

/-- Takes a number without a sign. -/
def unsigned : Reader Float :=
  step fun p ts =>
    match ts with
    | ⟨.number x, _⟩ :: rest => .ok (x, rest)
    | _ => .error (p.missing ts .number)

theorem steady_unsigned : A.Steady unsigned := by
  refine steady_of_kind (fun k x => k = .number x) .number (by simp) ?_ ?_
  · rintro k x rfl p o us
    rfl
  · intro p us hno
    rcases us with _ | ⟨⟨k, o⟩, us⟩
    · rfl
    · cases k with
      | number x => exact absurd rfl (hno _ o us x rfl)
      | _ => rfl

theorem number_minus (p : Place) (o : Nat) (us : List Token) :
    number p (⟨.mark .minus, o⟩ :: us) = (unsigned p us).map fun x => (-x.1, x.2) := by
  rcases us with _ | ⟨⟨k, o'⟩, us⟩
  · rfl
  · cases k <;> rfl

theorem number_of_forall {p : Place} {ts : List Token} (h : ∀ o us, ts ≠ ⟨.mark .minus, o⟩ :: us) :
    number p ts = unsigned p ts := by
  rcases ts with _ | ⟨⟨k, o⟩, us⟩
  · rfl
  · cases k with
    | mark m =>
      cases m with
      | minus => exact absurd rfl (h o us)
      | _ => rfl
    | _ => rfl

theorem steady_number : A.Steady number := by
  intro ts
  by_cases hminus : ∃ o us, ts = ⟨.mark .minus, o⟩ :: us
  · obtain ⟨o, us, rfl⟩ := hminus
    rw [List.cons_append, number_minus, number_minus]
    exact (steady_unsigned us).map fun x y h => ⟨congrArg Neg.neg h.1, h.2⟩
  · rw [number_of_forall fun o us h => hminus ⟨o, us, h⟩, number_of_forall]
    · exact steady_unsigned ts
    · intro o us h
      obtain ⟨us', rfl, -⟩ := A.exists_cons h (by simp)
      exact hminus ⟨o, us', rfl⟩

theorem steady_wholeNumber : A.Steady wholeNumber := by
  refine on_ahead.bind ?_
  rintro before _ rfl
  refine steady_number.bind ?_
  intro x
  dsimp only
  split
  · exact steady_pure _
  · exact fun _ => .error (A.notWhole before x)

/-- At the end of the line there is nothing behind the tokens in either reading. -/
theorem steady_endOfLine (h : A.extra = []) : A.Steady endOfLine := by
  intro ts
  have hunexpected := A.unexpected ts .endOfLine
  rw [h, List.append_nil] at hunexpected ⊢
  unfold endOfLine step
  dsimp only
  split
  · exact .ok ⟨rfl, by rw [h, List.append_nil]⟩
  · exact .error hunexpected

theorem steady_reader : A.Steady Expr.reader := by
  intro ts
  exact ((A.onExprs ts).chain .sum).map fun x y h => ⟨h.1.symm, h.2⟩

theorem steady_operandReader : A.Steady Expr.operandReader := by
  intro ts
  exact (A.onExprs ts).signed.map fun x y h => ⟨h.1.symm, h.2⟩

/-- A sum and then the end of the line. -/
theorem steady_whole (h : A.extra = []) : A.Steady Expr.whole :=
  steady_reader.bind fun _ => (steady_endOfLine h).bind fun _ => steady_pure _

end Readers

end Abreast

/-! ## 4. Commands that keep corresponding faults -/

section Like

variable (G : SyntaxError → SyntaxError → Prop)

/-- The same text, and the same expression or faults that correspond. -/
inductive ExprSource.Like : ExprSource → ExprSource → Prop
  | expr (text : String) (e : Expr) : Like ⟨text, .ok e⟩ ⟨text, .ok e⟩
  | fault (text : String) {e f : SyntaxError} (h : G e f) : Like ⟨text, .error e⟩ ⟨text, .error f⟩

/-- The same value, but for the fault that its source may keep. -/
inductive PropertyValue.Like : PropertyValue → PropertyValue → Prop
  | number {s t : ExprSource} (h : s.Like G t) : Like (.number s) (.number t)
  | refl {v : PropertyValue} (h : ∀ s, v ≠ .number s) : Like v v

/-- The same action, but for the fault that the source of an assignment may keep. -/
inductive Action.Like : Action → Action → Prop
  | assign (name : String) {s t : ExprSource} (h : s.Like G t) :
      Like (.assign name s) (.assign name t)
  | setProperty (entity property : String) {u v : PropertyValue} (h : u.Like G v) :
      Like (.setProperty entity property u) (.setProperty entity property v)
  | refl {a : Action} (hassign : ∀ name s, a ≠ .assign name s)
      (hset : ∀ entity property v, a ≠ .setProperty entity property v) : Like a a

/-- The same form, but for the fault that the source of an assignment may keep. -/
inductive Command.Form.Like : Form → Form → Prop
  | action {a b : Action} (h : a.Like G b) : Like (.action a) (.action b)
  | trigger (t : Trigger) : Like (.trigger t) (.trigger t)

end Like

/-- The action takes the rest of its line as it stands. -/
def Action.takesRest : Action → Bool
  | say _ | setColor _ | setBackground _ | assign _ _ | setProperty _ _ _ => true
  | _ => false

/-- The form takes the rest of its line as it stands; a trigger leaves it to the command behind. -/
def Command.Form.takesRest : Form → Bool
  | action a => a.takesRest
  | trigger _ => false

/-! ## 5. Forms -/

namespace Abreast

open Command
open StageScript.Expr (kinds)
open Reader hiding unexpected missing

variable {A : Abreast} {G : SyntaxError → SyntaxError → Prop} {src src' : List Char}

theorem steady_point : A.Steady point :=
  (steady_mark _).bind fun _ => steady_reader.bind fun _ => (steady_mark _).bind fun _ =>
    steady_reader.bind fun _ => (steady_mark _).bind fun _ => steady_pure _

theorem steady_randomRange : A.Steady randomRange :=
  (steady_word _).bind fun _ => steady_wholeNumber.bind fun _ => (steady_word _).bind fun _ =>
    steady_wholeNumber.bind fun _ => steady_pure _

theorem steady_eitherWord (v w : String) : A.Steady (eitherWord v w) := by
  refine (steady_takesWord v).bind ?_
  intro taken
  cases taken with
  | true => exact steady_pure _
  | false => exact steady_word w

theorem steady_box : A.Steady box :=
  steady_operandReader.bind fun _ => steady_operandReader.bind fun _ =>
    steady_operandReader.bind fun _ => steady_operandReader.bind fun _ => steady_pure _

theorem steady_image : A.Steady image :=
  steady_textLiteral.bind fun _ => (steady_word _).bind fun _ => steady_point.bind fun _ =>
    (steady_word _).bind fun _ => steady_operandReader.bind fun _ =>
      steady_operandReader.bind fun _ => steady_pure _

theorem steady_label : A.Steady label :=
  steady_textLiteral.bind fun _ => (steady_word _).bind fun _ => steady_point.bind fun _ =>
    (steady_word _).bind fun _ => steady_operandReader.bind fun _ =>
      (steady_eitherWord _ _).bind fun _ => steady_color.bind fun _ => (steady_word _).bind fun _ =>
        steady_textLiteral.bind fun _ => steady_pure _

theorem steady_every : A.Steady every :=
  steady_number.bind fun _ => (steady_eitherWord _ _).bind fun _ => (steady_word _).bind fun _ =>
    steady_pure _

theorem steady_keyGuard : A.Steady keyGuard :=
  steady_textLiteral.bind fun _ => (steady_word _).bind fun _ => (steady_word _).bind fun _ =>
    steady_pure _

/-- A number is declared where none of the four words decides. -/
theorem declaration_of_forall (p : Place) {ts : List Token}
    (h : ∀ w o next us, ts = ⟨.word w, o⟩ :: next :: us → w ≠ "spawn" ∧ ∃ c, next.kind = .stray c) :
    declaration p ts = (Declaration.number <$> Expr.reader) p ts := by
  rw [declaration, bind_ahead]
  split
  · obtain ⟨hspawn, c, hc⟩ := h _ _ _ _ rfl
    simp only [hc, hspawn, if_false, and_false, Token.Kind.isWord, Bool.false_eq_true]
  · rfl

theorem matches_declaration {ts : List Token} (h : A.extra ≠ [] → kinds ts ≠ [.word "spawn"]) :
    A.Matches (A.Both Eq) (declaration A.here ts) (declaration A.there (ts ++ A.extra)) := by
  have hnumber : A.Steady (Declaration.number <$> Expr.reader) := steady_reader.map fun _ => rfl
  have hrandom : A.Steady (Declaration.random <$> randomRange) :=
    steady_randomRange.map fun _ => rfl
  by_cases htwo : ∃ w o next us, ts = ⟨.word w, o⟩ :: next :: us
  · -- the same two tokens decide
    obtain ⟨w, o, next, us, rfl⟩ := htwo
    rw [declaration, bind_ahead, bind_ahead]
    simp only [List.cons_append]
    split_ifs
    · exact steady_box (next :: us)
    · exact steady_image (next :: us)
    · exact steady_label (next :: us)
    · exact hrandom (next :: us)
    · exact hnumber (⟨.word w, o⟩ :: next :: us)
  · rw [declaration_of_forall, declaration_of_forall]
    · exact hnumber ts
    · -- a single word, and a character outside the language behind it
      intro w o next us heq
      obtain ⟨us', rfl, hus⟩ := A.exists_cons heq (by simp)
      have hnil : us' = [] := by
        cases us' with
        | nil => rfl
        | cons t vs => exact absurd ⟨w, o, t, vs, rfl⟩ htwo
      subst hnil
      rw [List.nil_append] at hus
      refine ⟨?_, A.stray next (by rw [← hus]; exact List.mem_cons_self)⟩
      rintro rfl
      exact h (by rw [← hus]; exact List.cons_ne_nil _ _) rfl
    · intro w o next us heq
      exact absurd ⟨w, o, next, us, heq⟩ htwo

theorem exists_of_identifier {p : Place} {ts us : List Token} {n : String}
    (h : identifier p ts = .ok (n, us)) : ∃ o, ts = ⟨.word n, o⟩ :: us := by
  unfold identifier step at h
  dsimp only at h
  split at h
  · obtain ⟨rfl, rfl⟩ := Prod.mk.inj (Except.ok.inj h)
    exact ⟨_, rfl⟩
  · simp at h

theorem exists_of_mark {p : Place} {m : Mark} {ts us : List Token} {x : Unit}
    (h : mark m p ts = .ok (x, us)) : ∃ o, ts = ⟨.mark m, o⟩ :: us := by
  unfold mark step at h
  dsimp only at h
  split at h
  · split_ifs at h with hm
    obtain ⟨-, rfl⟩ := Prod.mk.inj (Except.ok.inj h)
    exact ⟨_, by rw [hm]⟩
  · simp at h

/-- The source of an expression that the rest of a line is. -/
def sourceOf (src : List Char) (p : Place) (ts : List Token) : ExprSource :=
  let text := remainder src p ts
  ⟨String.ofList text,
    if text.isEmpty then .error (p.fault ts .missingExpression)
    else Expr.ofText p.line (p.base + p.offset ts) text⟩

/-- The readings cut the same rest out of their lines, and what they keep of it corresponds. -/
structure SameRest (A : Abreast) (G : SyntaxError → SyntaxError → Prop) (src src' : List Char) :
    Prop where
  remainder : ∀ ts, remainder src' A.there (ts ++ A.extra) = remainder src A.here ts
  source : ∀ ts, (sourceOf src A.here ts).Like G (sourceOf src' A.there (ts ++ A.extra))

theorem on_exprSource (h : A.SameRest G src src') :
    A.On (Taken (ExprSource.Like G)) (exprSource src) (exprSource src') :=
  fun ts => .ok ⟨h.source ts, rfl, rfl⟩

theorem on_restOrEmpty (h : A.SameRest G src src') :
    A.On (Taken Eq) (restOrEmpty src) (restOrEmpty src') :=
  fun ts => .ok ⟨congrArg String.ofList (h.remainder ts).symm, rfl, rfl⟩

theorem on_rest (h : A.SameRest G src src') : A.On (Taken Eq) (rest src) (rest src') := by
  intro ts
  simp only [rest, step, h.remainder ts]
  split
  · exact .error (A.missing ts _)
  · exact .ok ⟨rfl, rfl, rfl⟩

theorem restUnquoted_eq (src : List Char) :
    restUnquoted src = (fun s => String.ofList (withoutQuotes s.toList)) <$> rest src := rfl

theorem on_restUnquoted (h : A.SameRest G src src') :
    A.On (Taken Eq) (restUnquoted src) (restUnquoted src') := by
  rw [restUnquoted_eq, restUnquoted_eq]
  exact (on_rest h).taken_map fun x y hxy => by rw [hxy]

theorem on_propertyValue (h : A.SameRest G src src') (prop : String) :
    A.On (Taken (PropertyValue.Like G)) (propertyValue src prop) (propertyValue src' prop) := by
  unfold propertyValue
  split_ifs
  · exact (on_exprSource h).taken_map fun _ _ hst => .number hst
  · exact (on_rest h).taken_map fun _ _ hst => hst ▸ .refl (by simp)
  · exact (on_restUnquoted h).taken_map fun _ _ hst => hst ▸ .refl (by simp)
  · exact (on_restOrEmpty h).taken_map fun _ _ hst => hst ▸ .refl (by simp)

/-- The same action but for a fault, which takes the rest of its line. -/
def TakesRest (G : SyntaxError → SyntaxError → Prop) (a b : Action) : Prop :=
  a.Like G b ∧ a.takesRest = true

/-- The same action, which leaves what is behind it. -/
def LeavesRest (a b : Action) : Prop := b = a ∧ a.takesRest = false

theorem on_say (h : A.SameRest G src src') :
    A.On (Taken (TakesRest G)) (Action.say <$> restUnquoted src)
      (Action.say <$> restUnquoted src') :=
  (on_restUnquoted h).taken_map fun _ _ hst => hst ▸ ⟨.refl (by simp) (by simp), rfl⟩

theorem on_make (h : A.SameRest G src src') :
    A.On (Taken (TakesRest G)) (make src) (make src') := by
  refine (steady_takesWord _).bind ?_
  intro color
  cases color with
  | true => exact (on_rest h).taken_map fun _ _ hst => hst ▸ ⟨.refl (by simp) (by simp), rfl⟩
  | false =>
    refine (steady_takesWord _).bind ?_
    intro background
    cases background with
    | true => exact (on_rest h).taken_map fun _ _ hst => hst ▸ ⟨.refl (by simp) (by simp), rfl⟩
    | false => exact on_unexpected _

theorem on_assign (h : A.SameRest G src src') (n : String) :
    A.On (Taken (TakesRest G)) (Action.assign n <$> exprSource src)
      (Action.assign n <$> exprSource src') :=
  (on_exprSource h).taken_map fun _ _ hst => ⟨.assign n hst, rfl⟩

theorem on_setProperty (h : A.SameRest G src src') (entity prop : String) :
    A.On (Taken (TakesRest G)) (Action.setProperty entity prop <$> propertyValue src prop)
      (Action.setProperty entity prop <$> propertyValue src' prop) :=
  (on_propertyValue h prop).taken_map fun _ _ hst => ⟨.setProperty entity prop hst, rfl⟩

theorem on_draw : A.On (A.Both LeavesRest) draw draw := by
  refine (steady_takesWord _).bind ?_
  intro circle
  cases circle with
  | true =>
    exact (steady_word _).bind fun _ => steady_point.bind fun _ => (steady_word _).bind fun _ =>
      steady_operandReader.bind fun _ => on_pure ⟨rfl, rfl⟩
  | false =>
    refine (steady_takesWord _).bind ?_
    intro line
    cases line with
    | true =>
      exact (steady_word _).bind fun _ => steady_point.bind fun _ => (steady_word _).bind fun _ =>
        steady_point.bind fun _ => (steady_word _).bind fun _ => steady_operandReader.bind fun _ =>
          on_pure ⟨rfl, rfl⟩
    | false => exact on_unexpected _

theorem on_play : A.On (A.Both LeavesRest) play play :=
  (steady_word _).bind fun _ => steady_textLiteral.map fun _ => ⟨rfl, rfl⟩

theorem on_add : A.On (A.Both LeavesRest) add add :=
  steady_identifier.bind fun _ => steady_number.map fun _ => ⟨rfl, rfl⟩

theorem on_random : A.On (A.Both LeavesRest) (Action.random <$> randomRange)
    (Action.random <$> randomRange) :=
  steady_randomRange.map fun _ => ⟨rfl, rfl⟩

theorem on_rotate : A.On (A.Both LeavesRest) rotate rotate :=
  steady_identifier.bind fun _ => (steady_word _).bind fun _ => steady_number.bind fun _ =>
    (steady_eitherWord _ _).bind fun _ => on_pure ⟨rfl, rfl⟩

theorem matches_declare {ts : List Token}
    (h : A.extra ≠ [] → ∀ n, kinds ts ≠ [.word n, .mark .equals, .word "spawn"]) :
    A.Matches (A.Both LeavesRest) (declare A.here ts) (declare A.there (ts ++ A.extra)) := by
  refine matches_bind (steady_identifier ts) ?_
  rintro n _ us hn rfl
  refine matches_bind (steady_mark .equals us) ?_
  rintro ⟨⟩ ⟨⟩ vs hequals -
  obtain ⟨o, rfl⟩ := exists_of_identifier hn
  obtain ⟨o₁, rfl⟩ := exists_of_mark hequals
  refine matches_map (matches_declaration fun hextra hspawn => h hextra n ?_) ?_
  · rw [Expr.kinds_cons, Expr.kinds_cons, hspawn]
  · rintro d _ vs _ ⟨rfl, hvs⟩
    exact ⟨⟨rfl, rfl⟩, hvs⟩

/-- The forms are the same but for a fault.  They take the rest of their lines, or they leave the
same tokens. -/
def SameForm (A : Abreast) (G : SyntaxError → SyntaxError → Prop) (x y : Form × List Token) :
    Prop :=
  Taken (fun f g => f.Like G g ∧ f.takesRest = true) x y
    ∨ A.Both (fun f g => g = f ∧ f.takesRest = false) x y

theorem On.taking {r s : Reader Action} (h : A.On (Taken (TakesRest G)) r s) :
    A.On (A.SameForm G) (Form.action <$> r) (Form.action <$> s) :=
  h.map fun _ _ _ _ h => .inl ⟨⟨.action h.1.1, h.1.2⟩, h.2⟩

theorem matches_leaving {r s : Reader Action} {ts : List Token}
    (h : A.Matches (A.Both LeavesRest) (r A.here ts) (s A.there (ts ++ A.extra))) :
    A.Matches (A.SameForm G) ((Form.action <$> r) A.here ts)
      ((Form.action <$> s) A.there (ts ++ A.extra)) :=
  matches_map h fun _ _ _ _ h => .inr ⟨⟨congrArg Form.action h.1.1, h.1.2⟩, h.2⟩

theorem On.leaving {r s : Reader Action} (h : A.On (A.Both LeavesRest) r s) :
    A.On (A.SameForm G) (Form.action <$> r) (Form.action <$> s) :=
  fun ts => matches_leaving (h ts)

theorem Steady.trigger {r : Reader Trigger} (h : A.Steady r) :
    A.On (A.SameForm G) (Form.trigger <$> r) (Form.trigger <$> r) := by
  refine On.map h ?_
  rintro t _ us vs ⟨rfl, hvs⟩
  exact .inr ⟨⟨rfl, rfl⟩, hvs⟩

theorem matches_verb (h : A.SameRest G src src') {verb : String} {ts : List Token}
    {e f : SyntaxError} (hef : A.faults e f)
    (hspawn : A.extra ≠ [] → verb = "let" →
      ∀ n, kinds ts ≠ [.word n, .mark .equals, .word "spawn"]) :
    A.Matches (A.SameForm G) (((verbForm? src verb).map fun r => r A.here ts).getD (.error e))
      (((verbForm? src' verb).map fun r => r A.there (ts ++ A.extra)).getD (.error f)) := by
  unfold verbForm?
  split
  · exact (on_say h).taking ts
  · exact (on_make h).taking ts
  · exact on_draw.leaving ts
  · exact on_play.leaving ts
  · exact matches_leaving (matches_declare fun hextra => hspawn hextra rfl)
  · exact on_add.leaving ts
  · exact on_random.leaving ts
  · exact on_rotate.leaving ts
  · exact (steady_word "click").bind (fun _ _ => .ok (.inr ⟨⟨rfl, rfl⟩, rfl⟩)) ts
  · exact steady_every.trigger ts
  · exact .error hef

/-- The tokens of a declaration whose value is the word `spawn`, with nothing behind it. -/
def DeclaresSpawn (ts : List Token) : Prop :=
  ∃ n, kinds ts = [.word "let", .word n, .mark .equals, .word "spawn"]

/-- **The forms of the language run abreast**, but for `let n = spawn` with something behind it. -/
theorem matches_form (h : A.SameRest G src src') {ts : List Token}
    (hspawn : A.extra ≠ [] → ¬ DeclaresSpawn ts) :
    A.Matches (A.SameForm G) (form src A.here ts) (form src' A.there (ts ++ A.extra)) := by
  by_cases hword : ∃ w o us, ts = ⟨.word w, o⟩ :: us
  · obtain ⟨w, o, us, rfl⟩ := hword
    rw [List.cons_append]
    by_cases hguard : w = "if" ∧ ∃ o₁ vs, us = ⟨.word "key", o₁⟩ :: vs
    · obtain ⟨rfl, o₁, vs, rfl⟩ := hguard
      exact steady_keyGuard.trigger vs
    by_cases hproperty : ∃ prop o₁ o₂ o₃ vs,
        us = ⟨.mark .dot, o₁⟩ :: ⟨.word prop, o₂⟩ :: ⟨.mark .equals, o₃⟩ :: vs
    · obtain ⟨prop, o₁, o₂, o₃, vs, rfl⟩ := hproperty
      simp only [List.cons_append]
      rw [form_property, form_property]
      exact (on_setProperty h w prop).taking vs
    by_cases hassign : ∃ o₁ vs, us = ⟨.mark .equals, o₁⟩ :: vs
    · obtain ⟨o₁, vs, rfl⟩ := hassign
      rw [List.cons_append, form_assign, form_assign]
      exact (on_assign h w).taking vs
    -- what tells the other forms is behind the word in both readings or in neither
    rw [form_verb, form_verb]
    · refine matches_verb h (A.unexpected (⟨.word w, o⟩ :: us) .command) ?_
      rintro hextra rfl n hkinds
      exact hspawn hextra ⟨n, by rw [Expr.kinds_cons, hkinds]⟩
    · rintro ⟨hif, hkey⟩
      obtain ⟨o₁, vs, heq⟩ := exists_of_head?_any hkey
      obtain ⟨vs', rfl, -⟩ := A.exists_cons heq (by simp)
      exact hguard ⟨hif, o₁, vs', rfl⟩
    · intro prop o₁ o₂ o₃ vs heq
      obtain ⟨us', rfl, hus⟩ := A.exists_cons heq (by simp)
      obtain ⟨vs', rfl, hvs⟩ := A.exists_cons hus.symm (by simp)
      obtain ⟨xs', rfl, -⟩ := A.exists_cons hvs.symm (by simp)
      exact hproperty ⟨prop, o₁, o₂, o₃, xs', rfl⟩
    · intro o₁ vs heq
      obtain ⟨vs', rfl, -⟩ := A.exists_cons heq (by simp)
      exact hassign ⟨o₁, vs', rfl⟩
    · rintro ⟨hif, hkey⟩
      obtain ⟨o₁, vs, rfl⟩ := exists_of_head?_any hkey
      exact hguard ⟨hif, o₁, vs, rfl⟩
    · intro prop o₁ o₂ o₃ vs heq
      exact hproperty ⟨prop, o₁, o₂, o₃, vs, heq⟩
    · intro o₁ vs heq
      exact hassign ⟨o₁, vs, heq⟩
  · rw [form_of_forall, form_of_forall]
    · exact .error (A.unexpected ts .command)
    · intro w o us heq
      obtain ⟨us', hts, -⟩ := A.exists_cons heq (by simp)
      exact hword ⟨w, o, us', hts⟩
    · intro w o us heq
      exact hword ⟨w, o, us, heq⟩

end Abreast
end StageScript

/-
# The grammar of expressions

    sum     = product (('+' | '-') product)*
    product = signed  (('*' | '/') signed)*
    signed  = '-' signed | primary
    primary = number | name | name '.' name | '(' sum ')'

`Derives s ks e` says that the kinds `ks` are a phrase of the symbol `s`, and that `e` is its
tree.  A chain is its first operand, or a shorter chain with one more operator and operand
behind it; so its tree groups to the left.  A minus becomes the sign of a literal and stands in
front of every other tree.

The readers of expressions are sound (`soundOn`): what they take is a phrase, and what
they return is its tree.  They are complete (`Derives.reads`): they take a phrase whenever what
follows cannot prolong it.  Both together make the tree of a phrase unique.
-/
import StageScript.Expr.Reading

namespace StageScript

open Token (Kind)

/-! ## 1. Phrases and their trees -/

/-- The chain that an operator belongs to. -/
def Operator.level : Operator → Expr.Level
  | add | sub => .sum
  | mul | div => .product

/-- The mark that stands for an operator. -/
def Operator.mark : Operator → Mark
  | add => .plus
  | sub => .minus
  | mul => .star
  | div => .slash

namespace Expr

/-- What the grammar has rules for. -/
inductive Symbol where
  | primary
  | signed
  | chain (l : Level)
  deriving DecidableEq

/-- The symbol of the operands of a chain. -/
def Level.operandSymbol : Level → Symbol
  | .sum => .chain .product
  | .product => .signed

/-- The phrases of the symbols, with their trees. -/
inductive Derives : Symbol → List Kind → Expr → Prop
  | number (x : Float) : Derives .primary [.number x] (.number x)
  | var (name : String) : Derives .primary [.word name] (.var name)
  | property (entity prop : String) :
      Derives .primary [.word entity, .mark .dot, .word prop] (.property entity prop)
  | group {ks : List Kind} {e : Expr} : Derives (.chain .sum) ks e →
      Derives .primary (.mark .leftParen :: ks ++ [.mark .rightParen]) e
  | primary {ks : List Kind} {e : Expr} : Derives .primary ks e → Derives .signed ks e
  | minusLiteral {ks : List Kind} {x : Float} : Derives .signed ks (.number x) →
      Derives .signed (.mark .minus :: ks) (.number (-x))
  | minus {ks : List Kind} {e : Expr} : Derives .signed ks e → (∀ x, e ≠ .number x) →
      Derives .signed (.mark .minus :: ks) (.neg e)
  | first {l : Level} {ks : List Kind} {e : Expr} : Derives l.operandSymbol ks e →
      Derives (.chain l) ks e
  | more {op : Operator} {ks ks' : List Kind} {e e' : Expr} : Derives (.chain op.level) ks e →
      Derives op.level.operandSymbol ks' e' →
      Derives (.chain op.level) (ks ++ .mark op.mark :: ks') (.binary op e e')

theorem Level.operator?_eq_some_iff {l : Level} {m : Mark} {op : Operator} :
    l.operator? m = some op ↔ op.level = l ∧ op.mark = m := by
  cases l <;> cases m <;> cases op <;> simp [operator?, Operator.level, Operator.mark]

theorem negated_of_ne {e : Expr} (h : ∀ x, e ≠ .number x) : e.negated = .neg e := by
  cases e with
  | number x => exact absurd rfl (h x)
  | _ => rfl

theorem Derives.negated {ks : List Kind} {e : Expr} (h : Derives .signed ks e) :
    Derives .signed (.mark .minus :: ks) e.negated := by
  cases e with
  | number x => exact .minusLiteral h
  | _ => exact .minus h fun _ => by simp

/-! ## 2. What the readers take is a phrase -/

/-- The kinds of tokens. -/
def kinds (ts : List Token) : List Kind := ts.map Token.kind

@[simp] theorem kinds_nil : kinds [] = [] := rfl

@[simp] theorem kinds_cons (t : Token) (ts : List Token) : kinds (t :: ts) = t.kind :: kinds ts :=
  rfl

@[simp] theorem kinds_append (ts ts' : List Token) : kinds (ts ++ ts') = kinds ts ++ kinds ts' :=
  List.map_append

variable {p : Place} {l : Level} {ts : List Token} {e left : Expr}

/-- The tokens from `ts` on to `rest` are a phrase of the symbol with the tree `e`. -/
def Takes (s : Symbol) (ts : List Token) (e : Expr) (rest : List Token) : Prop :=
  ∃ ks, kinds ts = ks ++ kinds rest ∧ Derives s ks e

/-- The tokens from `ts` on to `rest` prolong any chain with the tree `left` to one with the
tree `e`. -/
def Prolongs (l : Level) (left : Expr) (ts : List Token) (e : Expr) (rest : List Token) : Prop :=
  ∃ ks, kinds ts = ks ++ kinds rest ∧
    ∀ ks₀, Derives (.chain l) ks₀ left → Derives (.chain l) (ks₀ ++ ks) e

theorem Prolongs.refl (l : Level) (e : Expr) (ts : List Token) : Prolongs l e ts e ts :=
  ⟨[], rfl, fun ks₀ h => by rwa [List.append_nil]⟩

/-- The readers take phrases of these tokens only. -/
structure SoundOn (p : Place) (ts : List Token) : Prop where
  signed : ∀ {e rest}, Expr.signed p ts = .ok (e, rest) → Takes .signed ts e rest.1
  chain : ∀ {l e rest}, Expr.chain p l ts = .ok (e, rest) → Takes (.chain l) ts e rest.1
  chainTail : ∀ {l left e rest}, Expr.chainTail p l left ts = .ok (e, rest) →
    Prolongs l left ts e rest.1

theorem SoundOn.operand (h : SoundOn p ts) {rest : Shorter ts}
    (ho : operand p l ts = .ok (e, rest)) : Takes l.operandSymbol ts e rest.1 := by
  cases l with
  | sum =>
    rw [Expr.operand] at ho
    exact h.chain ho
  | product =>
    rw [Expr.operand] at ho
    exact h.signed ho

theorem kinds_of_closing {more : Shorter ts} (h : closing p ts = .ok more) :
    kinds ts = .mark .rightParen :: kinds more.1 := by
  unfold closing at h
  split at h
  · obtain rfl := Except.ok.inj h
    rfl
  · simp at h

theorem takes_of_signed (ih : ∀ us : List Token, us.length < ts.length → SoundOn p us)
    {rest : Shorter ts} (h : signed p ts = .ok (e, rest)) : Takes .signed ts e rest.1 := by
  rw [signed.eq_def] at h
  split at h
  · -- a minus before an operand
    split at h
    · simp at h
    · rename_i hs
      obtain ⟨rfl, rfl⟩ := Prod.mk.inj (Except.ok.inj h)
      obtain ⟨ks, hks, hd⟩ := (ih _ (by simp)).signed hs
      exact ⟨.mark .minus :: ks, congrArg (Kind.mark .minus :: ·) hks, hd.negated⟩
  · obtain ⟨rfl, rfl⟩ := Prod.mk.inj (Except.ok.inj h)
    exact ⟨_, rfl, .primary (.number _)⟩
  · obtain ⟨rfl, rfl⟩ := Prod.mk.inj (Except.ok.inj h)
    exact ⟨_, rfl, .primary (.property _ _)⟩
  · simp at h
  · obtain ⟨rfl, rfl⟩ := Prod.mk.inj (Except.ok.inj h)
    exact ⟨_, rfl, .primary (.var _)⟩
  · -- a sum between parentheses
    split at h
    · simp at h
    · rename_i hc
      split at h
      · simp at h
      · rename_i hclose
        obtain ⟨rfl, rfl⟩ := Prod.mk.inj (Except.ok.inj h)
        obtain ⟨ks, hks, hd⟩ := (ih _ (by simp)).chain hc
        refine ⟨_, ?_, .primary (.group hd)⟩
        rw [kinds_cons, hks, kinds_of_closing hclose, List.cons_append, List.cons_append,
          List.append_assoc]
        rfl
  · simp at h

theorem takes_of_chain (ih : ∀ us : List Token, us.length < ts.length → SoundOn p us)
    (hoperand : ∀ {e} {rest : Shorter ts}, operand p l ts = .ok (e, rest) →
      Takes l.operandSymbol ts e rest.1)
    {rest : Shorter ts} (h : chain p l ts = .ok (e, rest)) : Takes (.chain l) ts e rest.1 := by
  rw [chain] at h
  split at h
  · simp at h
  · rename_i rest₁ ho
    split at h
    · simp at h
    · rename_i ht
      obtain ⟨rfl, rfl⟩ := Prod.mk.inj (Except.ok.inj h)
      obtain ⟨ks, hks, hd⟩ := hoperand ho
      obtain ⟨ks', hks', hd'⟩ := (ih _ rest₁.2).chainTail ht
      refine ⟨ks ++ ks', ?_, hd' ks (.first hd)⟩
      rw [hks, hks', List.append_assoc]
      rfl

theorem prolongs_of_chainTail (ih : ∀ us : List Token, us.length < ts.length → SoundOn p us)
    {rest : NoLonger ts} (h : chainTail p l left ts = .ok (e, rest)) :
    Prolongs l left ts e rest.1 := by
  rw [chainTail.eq_def] at h
  split at h
  · split at h
    · obtain ⟨rfl, rfl⟩ := Prod.mk.inj (Except.ok.inj h)
      exact .refl l _ _
    · rename_i op hop
      obtain ⟨rfl, rfl⟩ := Level.operator?_eq_some_iff.mp hop
      split at h
      · simp at h
      · rename_i rest₁ ho
        split at h
        · simp at h
        · rename_i ht
          obtain ⟨rfl, rfl⟩ := Prod.mk.inj (Except.ok.inj h)
          obtain ⟨ks, hks, hd⟩ := (ih _ (by simp)).operand ho
          obtain ⟨ks', hks', hd'⟩ := (ih _ (Nat.lt_succ_of_lt rest₁.2)).chainTail ht
          refine ⟨.mark op.mark :: ks ++ ks', ?_, fun ks₀ h₀ => ?_⟩
          · rw [kinds_cons, hks, hks', List.cons_append, List.cons_append, List.append_assoc]
            rfl
          · have hmore := hd' _ (.more h₀ hd)
            rwa [List.append_assoc, List.cons_append] at hmore
  · obtain ⟨rfl, rfl⟩ := Prod.mk.inj (Except.ok.inj h)
    exact .refl l _ _

/-- **What the readers take is a phrase.** -/
theorem soundOn (p : Place) (ts : List Token) : SoundOn p ts := by
  -- induction on the number of tokens; at the same tokens, from the tighter level to the looser
  induction hn : ts.length using Nat.strongRecOn generalizing ts with
  | ind n ih =>
    subst hn
    have ih : ∀ us : List Token, us.length < ts.length → SoundOn p us :=
      fun us hus => ih _ hus us rfl
    have hsigned : ∀ {e rest}, signed p ts = .ok (e, rest) → Takes .signed ts e rest.1 :=
      takes_of_signed ih
    have hproduct : ∀ {e rest}, chain p .product ts = .ok (e, rest) →
        Takes (.chain .product) ts e rest.1 :=
      takes_of_chain (l := .product) ih fun ho => hsigned (by rwa [operand] at ho)
    have hsum : ∀ {e rest}, chain p .sum ts = .ok (e, rest) →
        Takes (.chain .sum) ts e rest.1 :=
      takes_of_chain (l := .sum) ih fun ho => hproduct (by rwa [operand] at ho)
    refine ⟨hsigned, fun {l} => ?_, prolongs_of_chainTail ih⟩
    cases l with
    | sum => exact hsum
    | product => exact hproduct

/-! ## 3. Every phrase is read -/

/-- The marks that may prolong a phrase. -/
def Symbol.continues : Symbol → List Mark
  | .primary | .signed => [.dot]
  | .chain .product => [.dot, .star, .slash]
  | .chain .sum => [.dot, .star, .slash, .plus, .minus]

/-- What follows does not prolong a phrase of the symbol. -/
def Symbol.Ends (s : Symbol) (rest : List Token) : Prop :=
  ∀ m ∈ s.continues, rest.head?.map Token.kind ≠ some (.mark m)

namespace Symbol

variable {rest : List Token}

theorem ends_nil (s : Symbol) : s.Ends [] := fun _ _ => by simp

theorem ends_cons {s : Symbol} {t : Token} (h : ∀ m ∈ s.continues, t.kind ≠ .mark m) :
    s.Ends (t :: rest) :=
  fun m hm => by simpa using h m hm

theorem Ends.mono {s s' : Symbol} (h : s.Ends rest) (hsub : s'.continues ⊆ s.continues) :
    s'.Ends rest :=
  fun m hm => h m (hsub hm)

theorem Ends.operand (h : (Symbol.chain l).Ends rest) : l.operandSymbol.Ends rest :=
  h.mono (by cases l <;> decide)

/-- The operators of a level end its operands. -/
theorem ends_operator (op : Operator) (o : Nat) (rest : List Token) :
    op.level.operandSymbol.Ends (⟨.mark op.mark, o⟩ :: rest) :=
  ends_cons fun m hm heq => by
    obtain rfl := Kind.mark.inj heq
    revert hm
    cases op <;> decide

end Symbol

theorem chainTail_of_ends {rest : List Token} (h : (Symbol.chain l).Ends rest) (e : Expr) :
    chainTail p l e rest = .ok (e, .all) := by
  rw [chainTail.eq_def]
  split
  · rename_i m o rest
    have hnone : l.operator? m = none := by
      cases hop : l.operator? m with
      | none => rfl
      | some op =>
        obtain ⟨rfl, rfl⟩ := Level.operator?_eq_some_iff.mp hop
        refine absurd rfl (h op.mark ?_)
        cases op <;> simp [Symbol.continues, Operator.level, Operator.mark]
    simp only [hnone]
  · rfl

/-- The readers take the phrase in front of whatever cannot prolong it.  A chain is read on
behind its phrase, so for it this says that reading goes on from its tree. -/
def Reads (p : Place) : Symbol → List Kind → Expr → Prop
  | .primary, ks, e | .signed, ks, e => ∀ us rest, kinds us = ks → Symbol.signed.Ends rest →
    ∃ r : Shorter (us ++ rest), r.1 = rest ∧ signed p (us ++ rest) = .ok (e, r)
  | .chain l, ks, e => ∀ us rest, kinds us = ks → l.operandSymbol.Ends rest →
    ∀ e' (r : NoLonger rest), chainTail p l e rest = .ok (e', r) →
      ∃ r' : Shorter (us ++ rest), r'.1 = r.1 ∧ chain p l (us ++ rest) = .ok (e', r')

section

variable {ks ks' : List Kind} {us rest : List Token} {e' : Expr}

theorem exists_rest {x : Except SyntaxError (Expr × Shorter ts)}
    (h : ∃ r : Shorter ts, r.1 = rest ∧ x = .ok (e, r)) : ∃ hlt, x = .ok (e, ⟨rest, hlt⟩) := by
  obtain ⟨r, rfl, hx⟩ := h
  exact ⟨r.2, hx⟩

theorem Reads.chain (h : Reads p (.chain l) ks e) (hus : kinds us = ks)
    (hends : (Symbol.chain l).Ends rest) :
    ∃ r : Shorter (us ++ rest), r.1 = rest ∧ chain p l (us ++ rest) = .ok (e, r) :=
  h us rest hus hends.operand e .all (chainTail_of_ends hends e)

theorem Reads.operand (h : Reads p l.operandSymbol ks e) (hus : kinds us = ks)
    (hends : l.operandSymbol.Ends rest) :
    ∃ r : Shorter (us ++ rest), r.1 = rest ∧ operand p l (us ++ rest) = .ok (e, r) := by
  cases l with
  | sum =>
    simp only [Expr.operand]
    exact Reads.chain (l := .product) h hus hends
  | product =>
    simp only [Expr.operand]
    exact h us rest hus hends

theorem exists_of_kinds_cons {k : Kind} (h : kinds us = k :: ks) :
    ∃ o vs, us = ⟨k, o⟩ :: vs ∧ kinds vs = ks := by
  obtain ⟨⟨k, o⟩, vs, rfl, rfl, hvs⟩ := List.map_eq_cons_iff.mp h
  exact ⟨o, vs, rfl, hvs⟩

theorem exists_of_kinds_singleton {k : Kind} (h : kinds us = [k]) : ∃ o, us = [⟨k, o⟩] := by
  obtain ⟨o, vs, rfl, hvs⟩ := exists_of_kinds_cons h
  obtain rfl := List.map_eq_nil_iff.mp hvs
  exact ⟨o, rfl⟩

theorem reads_number (x : Float) : Reads p .primary [.number x] (.number x) := by
  intro us rest hus _
  obtain ⟨o, rfl⟩ := exists_of_kinds_singleton hus
  exact ⟨.tail, rfl, signed.eq_2 ..⟩

theorem reads_var (name : String) : Reads p .primary [.word name] (.var name) := by
  intro us rest hus hends
  obtain ⟨o, rfl⟩ := exists_of_kinds_singleton hus
  -- a point behind the name would make it a property
  have hdot : ∀ o' rest', rest ≠ ⟨.mark .dot, o'⟩ :: rest' := by
    rintro o' rest' rfl
    exact hends .dot (by decide) rfl
  exact ⟨.tail, rfl, signed.eq_5 _ _ _ _ (fun o' prop o'' rest' => hdot o' _) hdot⟩

theorem reads_property (entity prop : String) :
    Reads p .primary [.word entity, .mark .dot, .word prop] (.property entity prop) := by
  intro us rest hus _
  obtain ⟨o₁, vs, rfl, hvs⟩ := exists_of_kinds_cons hus
  obtain ⟨o₂, ws, rfl, hws⟩ := exists_of_kinds_cons hvs
  obtain ⟨o₃, rfl⟩ := exists_of_kinds_singleton hws
  exact ⟨.behind (.behind .tail), rfl, signed.eq_3 ..⟩

theorem reads_group (h : Reads p (.chain .sum) ks e) :
    Reads p .primary (.mark .leftParen :: ks ++ [.mark .rightParen]) e := by
  intro us rest hus _
  obtain ⟨o, vs, rfl, hvs⟩ := exists_of_kinds_cons hus
  obtain ⟨inner, close, rfl, hinner, hclose⟩ := List.map_eq_append_iff.mp hvs
  obtain ⟨o', rfl⟩ := exists_of_kinds_singleton hclose
  have hparen : (Symbol.chain .sum).Ends (⟨.mark .rightParen, o'⟩ :: rest) :=
    Symbol.ends_cons (by simp [Symbol.continues])
  obtain ⟨hlt, hsum⟩ := exists_rest (h.chain hinner hparen)
  rw [List.cons_append, List.append_assoc, List.cons_append, List.nil_append, signed.eq_6]
  simp only [hsum, closing]
  exact ⟨_, rfl, rfl⟩

theorem reads_negated (h : Reads p .signed ks e) :
    Reads p .signed (.mark .minus :: ks) e.negated := by
  intro us rest hus hends
  obtain ⟨o, vs, rfl, hvs⟩ := exists_of_kinds_cons hus
  obtain ⟨hlt, hsigned⟩ := exists_rest (h vs rest hvs hends)
  rw [List.cons_append, signed.eq_1]
  simp only [hsigned]
  exact ⟨_, rfl, rfl⟩

theorem reads_first (h : Reads p l.operandSymbol ks e) : Reads p (.chain l) ks e := by
  intro us rest hus hends e' r htail
  obtain ⟨hlt, hop⟩ := exists_rest (h.operand hus hends)
  rw [Expr.chain]
  simp only [hop, htail]
  exact ⟨_, rfl, rfl⟩

theorem reads_more {op : Operator} (h : Reads p (.chain op.level) ks e)
    (h' : Reads p op.level.operandSymbol ks' e') :
    Reads p (.chain op.level) (ks ++ .mark op.mark :: ks') (.binary op e e') := by
  intro us rest hus hends e'' r htail
  obtain ⟨vs, ws, rfl, hvs, hws⟩ := List.map_eq_append_iff.mp hus
  obtain ⟨o, xs, rfl, hxs⟩ := exists_of_kinds_cons hws
  obtain ⟨hlt, hop⟩ := exists_rest (h'.operand hxs hends)
  -- behind the shorter chain, reading goes on with the operator and its operand
  have hlater : ∃ r' : NoLonger (⟨.mark op.mark, o⟩ :: (xs ++ rest)), r'.1 = r.1 ∧
      chainTail p op.level e (⟨.mark op.mark, o⟩ :: (xs ++ rest)) = .ok (e'', r') := by
    rw [chainTail.eq_def]
    simp only [Level.operator?_eq_some_iff.mpr ⟨rfl, rfl⟩, hop, htail]
    exact ⟨_, rfl, rfl⟩
  obtain ⟨r', hr', hlater⟩ := hlater
  rw [List.append_assoc, List.cons_append]
  obtain ⟨r'', hr'', hchain⟩ := h vs _ hvs (Symbol.ends_operator op o _) e'' r' hlater
  exact ⟨r'', hr''.trans hr', hchain⟩

/-- **Every phrase is read, and its tree is returned.** -/
theorem Derives.reads {s : Symbol} (h : Derives s ks e) : Reads p s ks e := by
  induction h with
  | number x => exact reads_number x
  | var name => exact reads_var name
  | property entity prop => exact reads_property entity prop
  | group _ ih => exact reads_group ih
  | primary _ ih => exact ih
  | minusLiteral _ ih => exact reads_negated ih
  | minus _ hne ih =>
    rw [← negated_of_ne hne]
    exact reads_negated ih
  | first _ ih => exact reads_first ih
  | more _ _ ih ih' => exact reads_more ih ih'

/-- A phrase and nothing behind it. -/
theorem Derives.reads_all {s : Symbol} (h : Derives s ks e) (hus : kinds us = ks) :
    ∃ r : Shorter us, r.1 = [] ∧
      (match s with
        | .chain l => chain p l us
        | .primary | .signed => signed p us) = .ok (e, r) := by
  have hreads := h.reads (p := p)
  cases s with
  | chain l =>
    have hchain := hreads.chain hus (Symbol.ends_nil _)
    rwa [List.append_nil] at hchain
  | primary | signed =>
    have hsigned := hreads us [] hus (Symbol.ends_nil _)
    rwa [List.append_nil] at hsigned

/-- The tree of a phrase is unique. -/
theorem Derives.unique {s : Symbol} (h : Derives s ks e) (h' : Derives s ks e') : e = e' := by
  -- on any tokens of these kinds, both trees are what the reader returns
  have hus : kinds (ks.map (⟨·, 0⟩)) = ks := by simp [kinds, Function.comp_def]
  obtain ⟨r, -, hread⟩ := h.reads_all (p := ⟨0, 0, 0⟩) hus
  obtain ⟨r', -, hread'⟩ := h'.reads_all (p := ⟨0, 0, 0⟩) hus
  exact congrArg Prod.fst (Except.ok.inj (hread.symm.trans hread'))

end

/-! ## 4. Texts -/

/-- The tokens of a whole text are read as a sum, and nothing may be left of them. -/
theorem ofText_eq (line base : Nat) (cs : List Char) :
    ofText line base cs = (Token.lex line base cs).bind fun lexed =>
      (chain ⟨line, base, lexed.stop⟩ .sum lexed.tokens).bind fun (e, rest) =>
        if rest.1.isEmpty then .ok e
        else .error (Place.unexpected ⟨line, base, lexed.stop⟩ rest.1 .endOfLine) := by
  unfold ofText
  cases Token.lex line base cs with
  | error f => rfl
  | ok lexed =>
    simp only [bind, Except.bind, ReaderT.bind, StateT.bind, reader, Reader.step,
      Reader.endOfLine]
    cases chain ⟨line, base, lexed.stop⟩ .sum lexed.tokens with
    | error f => rfl
    | ok x =>
      obtain ⟨e, rest⟩ := x
      simp only [Except.map]
      cases rest.1.isEmpty <;> rfl

theorem ofText_eq_ok_iff {line base : Nat} {cs : List Char} {e : Expr} :
    ofText line base cs = .ok e ↔
      ∃ lexed, Token.lex line base cs = .ok lexed ∧
        Derives (.chain .sum) (kinds lexed.tokens) e := by
  rw [ofText_eq]
  constructor
  · intro h
    cases hlex : Token.lex line base cs with
    | error f => simp [hlex, Except.bind] at h
    | ok lexed =>
      rw [hlex] at h
      simp only [Except.bind] at h
      split at h
      · simp at h
      · rename_i x hchain
        obtain ⟨e', rest⟩ := x
        simp only at h
        split at h
        · rename_i hempty
          obtain rfl := Except.ok.inj h
          obtain ⟨ks, hks, hd⟩ := (soundOn _ _).chain hchain
          rw [List.isEmpty_iff.mp hempty, kinds_nil, List.append_nil] at hks
          exact ⟨lexed, rfl, hks ▸ hd⟩
        · simp at h
  · rintro ⟨lexed, hlex, hd⟩
    obtain ⟨r, hr, hchain⟩ := hd.reads_all (p := ⟨line, base, lexed.stop⟩) rfl
    simp only [hlex, Except.bind, hchain, hr, List.isEmpty_nil, if_true]

/-- **The texts of expressions are those whose tokens are a sum.**  A text is read as `e` just
when it has tokens and they are a sum with the tree `e`; a sum has one tree; and every other text
is refused. -/
theorem reads_exactly_sums (line base : Nat) (cs : List Char) :
    (∀ e, ofText line base cs = .ok e ↔
      ∃ lexed, Token.lex line base cs = .ok lexed ∧
        Derives (.chain .sum) (kinds lexed.tokens) e) ∧
    (∀ ks e e', Derives (.chain .sum) ks e → Derives (.chain .sum) ks e' → e = e') ∧
    ((¬ ∃ lexed e, Token.lex line base cs = .ok lexed ∧
        Derives (.chain .sum) (kinds lexed.tokens) e) →
      ∃ f, ofText line base cs = .error f) := by
  refine ⟨fun e => ofText_eq_ok_iff, fun ks e e' => Derives.unique, fun hnone => ?_⟩
  cases h : ofText line base cs with
  | error f => exact ⟨f, rfl⟩
  | ok e =>
    obtain ⟨lexed, hlex, hd⟩ := ofText_eq_ok_iff.mp h
    exact absurd ⟨lexed, e, hlex, hd⟩ hnone

deriving instance DecidableEq for Expr

/-- Subtraction groups to the left, and the minus before the parentheses becomes a sign. -/
example : (ofText 1 0 "8 - 2 - -(3)".toList).toOption
    = some (.binary .sub (.binary .sub (.number 8) (.number 2)) (.number (-3))) := by
  decide +kernel

end Expr
end StageScript

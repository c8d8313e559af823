/-
# Canonical commands are read back

A reader goes on behind some words as another one (`Reader.GoesOn`) if it takes their tokens,
whatever follows that does not prolong an operand.  Readers in sequence take their words in
sequence, so each form of the language is one lemma about its words, and the lemma is put together
in the order in which the form is read.
-/
import StageScript.Proofs.Command.Canonical

namespace StageScript

open Token (Kind isName)
open StageScript.Expr (kinds exists_of_kinds_cons exists_of_kinds_singleton)

/-! ## 1. Readers and words -/

/-- The tokens of words end an operand that stands before them. -/
theorem Word.ends {ws : List Word} {us rest : List Token} (hus : Expr.kinds us = ws.flatMap kinds)
    (hrest : Expr.Symbol.signed.Ends rest) : Expr.Symbol.signed.Ends (us ++ rest) := by
  cases ws with
  | nil =>
    obtain rfl := List.map_eq_nil_iff.mp hus
    exact hrest
  | cons w ws =>
    intro m hm
    obtain rfl : m = .dot := by simpa [Expr.Symbol.continues] using hm
    have hhead : (us ++ rest).head?.map Token.kind = w.kinds.head? := by
      obtain ⟨k, ks, hk⟩ := List.exists_cons_of_ne_nil w.ne_nil
      rw [List.flatMap_cons, hk, List.cons_append] at hus
      obtain ⟨o, vs, rfl, -⟩ := exists_of_kinds_cons hus
      rw [hk]
      rfl
    rw [hhead]
    exact w.head?_ne_dot

namespace Reader

variable {α β : Type} {r r' : Reader α} {x : α} {ws ws' : List Word}

/-- Behind the words, `r` goes on as `r'`. -/
def GoesOn (r : Reader α) (ws : List Word) (r' : Reader α) : Prop :=
  ∀ p us rest, kinds us = ws.flatMap Word.kinds → Expr.Symbol.signed.Ends rest →
    r p (us ++ rest) = r' p rest

/-- The reader takes the words for `x`. -/
def Takes (r : Reader α) (ws : List Word) (x : α) : Prop := r.GoesOn ws (pure x)

theorem GoesOn.refl (r : Reader α) : r.GoesOn [] r := by
  intro p us rest hus _
  obtain rfl := List.map_eq_nil_iff.mp hus
  rfl

theorem takes_pure (x : α) : (pure x : Reader α).Takes [] x := GoesOn.refl _

theorem Takes.bind {f : α → Reader β} {r' : Reader β} (h : r.Takes ws x)
    (h' : (f x).GoesOn ws' r') : (r >>= f).GoesOn (ws ++ ws') r' := by
  intro p us rest hus hends
  rw [List.flatMap_append] at hus
  obtain ⟨vs, xs, rfl, hvs, hxs⟩ := List.map_eq_append_iff.mp hus
  have hfirst := h p vs (xs ++ rest) hvs (Word.ends hxs hends)
  have hthen : (r >>= f) p (vs ++ (xs ++ rest)) = f x p (xs ++ rest) := by
    simp only [Bind.bind, ReaderT.bind, StateT.bind, hfirst]
    rfl
  rw [List.append_assoc, hthen, h' p xs rest hxs hends]

theorem GoesOn.map (h : r.GoesOn ws r') (f : α → β) : (f <$> r).GoesOn ws (f <$> r') := by
  intro p us rest hus hends
  simp only [Functor.map, StateT.map, h p us rest hus hends]

theorem map_eq_ok {p : Place} {ts rest : List Token} (h : r p ts = .ok (x, rest)) (f : α → β) :
    (f <$> r) p ts = .ok (f x, rest) := by
  simp only [Functor.map, StateT.map, h]
  rfl

theorem map_eq_error {p : Place} {ts : List Token} {e : SyntaxError} (h : r p ts = .error e)
    (f : α → β) : (f <$> r) p ts = .error e := by
  simp only [Functor.map, StateT.map, h]
  rfl

theorem bind_eq_ok {k : α → Reader β} {p : Place} {ts us : List Token} {y : β}
    (h : (r >>= k) p ts = .ok (y, us)) : ∃ x vs, r p ts = .ok (x, vs) ∧ k x p vs = .ok (y, us) := by
  have hbind : (r >>= k) p ts = (r p ts).bind fun x => k x.1 p x.2 := rfl
  rw [hbind] at h
  cases hr : r p ts with
  | error e => simp [hr, Except.bind] at h
  | ok x =>
    rw [hr] at h
    exact ⟨x.1, x.2, rfl, h⟩

theorem eq_of_map_eq_ok {f : α → β} {p : Place} {ts us : List Token} {y : β}
    (h : (f <$> r) p ts = .ok (y, us)) : ∃ x, r p ts = .ok (x, us) ∧ y = f x := by
  cases hr : r p ts with
  | error e =>
    rw [map_eq_error hr] at h
    simp at h
  | ok x =>
    rw [map_eq_ok (show r p ts = .ok (x.1, x.2) from hr)] at h
    obtain ⟨rfl, rfl⟩ := Prod.mk.inj (Except.ok.inj h)
    exact ⟨x.1, rfl, rfl⟩

theorem Takes.map (h : r.Takes ws x) (f : α → β) : (f <$> r).Takes ws (f x) :=
  GoesOn.map h f

/-- A reader may decide by a name and the token behind it. -/
theorem GoesOn.of_next {s t : Reader α} {n : String} {hn : isName n = true} {w : Word}
    (hstep : ∀ p o next ts, w.kinds.head? = some next.kind →
      r p (⟨.word n, o⟩ :: next :: ts) = s p (next :: ts))
    (h : s.GoesOn (w :: ws) t) : r.GoesOn (.name n hn :: w :: ws) t := by
  intro p us rest hus hends
  obtain ⟨o, vs, rfl, hvs⟩ := exists_of_kinds_cons hus
  obtain ⟨k, ks, hk⟩ := List.exists_cons_of_ne_nil w.ne_nil
  rw [← h p vs rest hvs hends]
  have hcons : kinds vs = k :: (ks ++ ws.flatMap Word.kinds) := by
    rw [← List.cons_append, ← hk]
    exact hvs
  obtain ⟨o', vs, rfl, -⟩ := exists_of_kinds_cons hcons
  exact hstep p o ⟨k, o'⟩ (vs ++ rest) (by rw [hk]; rfl)

/-! ## 2. One word -/

theorem takes_takesWord {w : String} (hw : isName w = true) :
    (takesWord w).Takes [.name w hw] true := by
  intro p us rest hus _
  obtain ⟨o, rfl⟩ := exists_of_kinds_singleton hus
  exact congrArg Except.ok (if_pos (beq_self_eq_true w))

theorem takes_word {w : String} (hw : isName w = true) : (word w).Takes [.name w hw] () :=
  (takes_takesWord hw).bind (takes_pure ())

theorem takes_identifier {n : String} (hn : isName n = true) :
    identifier.Takes [.name n hn] n := by
  intro p us rest hus _
  obtain ⟨o, rfl⟩ := exists_of_kinds_singleton hus
  rfl

theorem takes_textLiteral (t : String) : textLiteral.Takes [.literal t] t := by
  intro p us rest hus _
  obtain ⟨o, rfl⟩ := exists_of_kinds_singleton hus
  rfl

theorem mark_cons (p : Place) (m : Mark) (o : Nat) (rest : List Token) :
    mark m p (⟨.mark m, o⟩ :: rest) = .ok ((), rest) := if_pos rfl

theorem takes_equals : (mark .equals).Takes [.equals] () := by
  intro p us rest hus _
  obtain ⟨o, rfl⟩ := exists_of_kinds_singleton hus
  exact mark_cons p .equals o rest

theorem takes_color {token : String} (h : Token.isColor token = true) :
    color.Takes [.color token h] token := by
  intro p us rest hus _
  obtain ⟨o, rfl⟩ := exists_of_kinds_singleton hus
  unfold Word.colorKind
  split_ifs <;> rfl

/-- The tokens of a number, with a minus or without. -/
theorem number_of_kinds {p : Place} {us rest : List Token} {x : Float} (hx : x.isFinite = true)
    (hus : kinds us = Decimal.spelling x) : number p (us ++ rest) = .ok (x, rest) := by
  unfold Decimal.spelling at hus
  split_ifs at hus
  · obtain ⟨o, vs, rfl, hvs⟩ := exists_of_kinds_cons hus
    obtain ⟨o', rfl⟩ := exists_of_kinds_singleton hvs
    have hneg := Decimal.neg_neg_of_isFinite hx
    simp [number, step, hneg]
  · obtain ⟨o, rfl⟩ := exists_of_kinds_singleton hus
    rfl

theorem takes_number {x : Float} (hx : x.isFinite = true) : number.Takes [.number x hx] x := by
  intro p us rest hus _
  rw [List.flatMap_singleton] at hus
  exact number_of_kinds hx hus

/-- An operand in front of what does not prolong it. -/
theorem operandReader_of_derives {p : Place} {us rest : List Token} {ks : List Kind} {e : Expr}
    (h : Expr.Derives .signed ks e) (hus : kinds us = ks) (hends : Expr.Symbol.signed.Ends rest) :
    Expr.operandReader p (us ++ rest) = .ok (e, rest) := by
  obtain ⟨r, hr, hsigned⟩ := h.reads (p := p) us rest hus hends
  simp only [Expr.operandReader, step, hsigned, Except.map, hr]

theorem takes_operand {e : Expr} (he : e.isCanonical = true) :
    Expr.operandReader.Takes [.expr e he] e := by
  intro p us rest hus hends
  rw [List.flatMap_singleton] at hus
  exact operandReader_of_derives (Expr.derives_spelling he) hus hends

/-- A whole number of at most 53 bits. -/
theorem takes_wholeNumber {n : Int64} (hn : n.toInt.natAbs ≤ 2 ^ 53) :
    wholeNumber.Takes [.whole n.toInt] n := by
  intro p us rest hus _
  rw [List.flatMap_singleton] at hus
  obtain ⟨m, q, hofFloat, hvalue⟩ := Decimal.nearest_ofNat hn
  -- the double that stands before the test, with its sign
  have hread : ∃ x, number p (us ++ rest) = .ok (x, rest)
      ∧ Decimal.Binary.ofFloat x = .finite (n.toInt < 0) m q := by
    have hkinds : kinds us = Decimal.wholeSpelling n.toInt := hus
    unfold Decimal.wholeSpelling at hkinds
    split_ifs at hkinds with hneg
    · obtain ⟨o, vs, rfl, hvs⟩ := exists_of_kinds_cons hkinds
      obtain ⟨o', rfl⟩ := exists_of_kinds_singleton hvs
      exact ⟨_, rfl, by simpa [hneg] using Decimal.ofFloat_neg hofFloat⟩
    · obtain ⟨o, rfl⟩ := exists_of_kinds_singleton hkinds
      exact ⟨_, rfl, by simpa [hneg] using hofFloat⟩
  obtain ⟨x, hnumber, hx⟩ := hread
  obtain ⟨hwhole, hint⟩ := Decimal.isWhole_and_toInt64 (n.toInt < 0) hn hvalue
  have hself : (Decimal.Binary.finite (n.toInt < 0) m q).toInt64 = n := by
    rw [← Int64.toInt_inj, hint]
    simp only [decide_eq_true_eq]
    omega
  have hahead : ahead p (us ++ rest) = .ok (us ++ rest, us ++ rest) := rfl
  simp only [wholeNumber, Bind.bind, ReaderT.bind, StateT.bind, Except.bind, hahead, hnumber, hx,
    hwhole, hself, if_true]

/-- An expression in front of what does not prolong a sum. -/
theorem reader_of_derives {p : Place} {us rest : List Token} {ks : List Kind} {e : Expr}
    (h : Expr.Derives (.chain .sum) ks e) (hus : kinds us = ks)
    (hends : (Expr.Symbol.chain .sum).Ends rest) : Expr.reader p (us ++ rest) = .ok (e, rest) := by
  have hreads := h.reads (p := p)
  obtain ⟨r, hr, hchain⟩ := hreads.chain hus hends
  simp only [Expr.reader, step, hchain, Except.map, hr]

theorem takes_point {c : Point} (hc : c.isCanonical = true) :
    Command.point.Takes [.point c hc] c := by
  intro p us rest hus _
  rw [List.flatMap_singleton] at hus
  obtain ⟨hx, hy⟩ := Bool.and_eq_true_iff.mp hc
  obtain ⟨o, vs, rfl, hvs⟩ := exists_of_kinds_cons hus
  obtain ⟨inner, close, rfl, hinner, hclose⟩ := List.map_eq_append_iff.mp hvs
  obtain ⟨xs, ws, rfl, hxs, hws⟩ := List.map_eq_append_iff.mp hinner
  obtain ⟨o', ys, rfl, hys⟩ := exists_of_kinds_cons hws
  obtain ⟨o'', rfl⟩ := exists_of_kinds_singleton hclose
  -- neither the comma nor the parenthesis prolongs a sum
  have hends (m : Mark) (o : Nat) (ts : List Token) (hm : m ∉ (Expr.Symbol.chain .sum).continues) :
      (Expr.Symbol.chain .sum).Ends (⟨.mark m, o⟩ :: ts) :=
    Expr.Symbol.ends_cons fun m' hm' heq => hm (Kind.mark.inj heq ▸ hm')
  have hfirst := reader_of_derives (p := p) ((Expr.derives_spelling hx).chain .sum) hxs
    (hends .comma o' (ys ++ ⟨.mark .rightParen, o''⟩ :: rest) (by decide))
  have hsecond := reader_of_derives (p := p) ((Expr.derives_spelling hy).chain .sum) hys
    (hends .rightParen o'' rest (by decide))
  simp only [List.cons_append, List.append_assoc, List.nil_append]
  simp only [Command.point, Bind.bind, ReaderT.bind, StateT.bind, Except.bind, mark_cons, hfirst,
    hsecond]

end Reader

/-! ## 3. Declarations -/

namespace Command

open Reader

variable {ws : List Word}

/-- The words of the bounds of a random number. -/
def boundWords (r : RandomRange) : List Word :=
  [.name "from" (by decide), .whole r.first.toInt, .name "to" (by decide), .whole r.last.toInt]

theorem takes_randomRange {r : RandomRange} (hr : r.isCanonical = true) :
    randomRange.Takes (boundWords r) r := by
  rw [RandomRange.isCanonical, Bool.and_eq_true, decide_eq_true_iff, decide_eq_true_iff] at hr
  exact (takes_word _).bind <| (takes_wholeNumber hr.1).bind <| (takes_word _).bind <|
    (takes_wholeNumber hr.2).bind (takes_pure _)

theorem takes_eitherWord {v : String} (hv : isName v = true) (w : String) :
    (eitherWord v w).Takes [.name v hv] () :=
  (takes_takesWord hv).bind (takes_pure ())

/-- What a name is declared as is told by its first word and the token behind that. -/
theorem takes_declaration {d : Declaration} (hd : d.isCanonical = true) :
    ∃ ws : List Word, ws.map Word.text = d.words ∧ declaration.Takes ws d := by
  cases d with
  | box x y w h =>
    simp only [Declaration.isCanonical, Bool.and_eq_true] at hd
    obtain ⟨⟨⟨hx, hy⟩, hw⟩, hh⟩ := hd
    refine ⟨[.name "spawn" (by decide), .expr x hx, .expr y hy, .expr w hw, .expr h hh], rfl, ?_⟩
    refine GoesOn.of_next (s := box) (fun _ _ _ _ _ => rfl) ?_
    exact (takes_operand hx).bind <| (takes_operand hy).bind <| (takes_operand hw).bind <|
      (takes_operand hh).bind (takes_pure _)
  | image path position w h =>
    simp only [Declaration.isCanonical, Bool.and_eq_true] at hd
    obtain ⟨⟨hposition, hw⟩, hh⟩ := hd
    refine ⟨[.name "image" (by decide), .literal path, .name "at" (by decide),
      .point position hposition, .name "size" (by decide), .expr w hw, .expr h hh], rfl, ?_⟩
    refine GoesOn.of_next (s := image) ?_ ?_
    · rintro p o ⟨k, o'⟩ ts hk
      obtain rfl := Option.some.inj hk
      rfl
    · exact (takes_textLiteral path).bind <| (takes_word _).bind <|
        (takes_point hposition).bind <| (takes_word _).bind <| (takes_operand hw).bind <|
        (takes_operand hh).bind (takes_pure _)
  | text t position size color font =>
    simp only [Declaration.isCanonical, Bool.and_eq_true] at hd
    obtain ⟨⟨hposition, hsize⟩, hcolor⟩ := hd
    refine ⟨[.name "text" (by decide), .literal t, .name "at" (by decide),
      .point position hposition, .name "size" (by decide), .expr size hsize,
      .name "colour" (by decide), .color color hcolor, .name "font" (by decide), .literal font],
      rfl, ?_⟩
    refine GoesOn.of_next (s := label) ?_ ?_
    · rintro p o ⟨k, o'⟩ ts hk
      obtain rfl := Option.some.inj hk
      rfl
    · exact (takes_textLiteral t).bind <| (takes_word _).bind <|
        (takes_point hposition).bind <| (takes_word _).bind <| (takes_operand hsize).bind <|
        (takes_eitherWord _ _).bind <| (takes_color hcolor).bind <| (takes_word _).bind <|
        (takes_textLiteral font).bind (takes_pure _)
  | random range =>
    refine ⟨.name "random" (by decide) :: boundWords range, rfl, ?_⟩
    refine GoesOn.of_next (s := Declaration.random <$> randomRange) ?_ ?_
    · rintro p o ⟨k, o'⟩ ts hk
      obtain rfl := Option.some.inj hk
      rfl
    · exact (takes_randomRange hd).map Declaration.random
  | number value => simp [Declaration.isCanonical] at hd

/-! ## 4. Forms -/

variable {src : List Char} {n : String} {hn : isName n = true} {w : Word}

theorem bind_ahead {α : Type} (f : List Token → Reader α) (p : Place) (ts : List Token) :
    (ahead >>= f) p ts = f ts p ts := rfl

/-- The guard of a key is told by its first two words. -/
theorem form_keyGuard (p : Place) (o o₁ : Nat) (ts : List Token) :
    form src p (⟨.word "if", o⟩ :: ⟨.word "key", o₁⟩ :: ts) = (Form.trigger <$> keyGuard) p ts :=
  rfl

/-- An assignment to a property. -/
theorem form_property (p : Place) (entity prop : String) (o o₁ o₂ o₃ : Nat) (ts : List Token) :
    form src p (⟨.word entity, o⟩ :: ⟨.mark .dot, o₁⟩ :: ⟨.word prop, o₂⟩ :: ⟨.mark .equals, o₃⟩
        :: ts)
      = (Form.action <$> (Action.setProperty entity prop <$> propertyValue src prop)) p ts := by
  simp only [form, bind_ahead]
  rw [if_neg (by simp [Kind.isWord])]
  rfl

/-- An assignment to a name. -/
theorem form_assign (p : Place) (n : String) (o o₁ : Nat) (ts : List Token) :
    form src p (⟨.word n, o⟩ :: ⟨.mark .equals, o₁⟩ :: ts)
      = (Form.action <$> (Action.assign n <$> exprSource src)) p ts := by
  simp only [form, bind_ahead]
  rw [if_neg (by simp [Kind.isWord])]
  rfl

/-- What is neither the guard of a key nor an assignment is told by its verb. -/
theorem form_verb (p : Place) (n : String) (o : Nat) {ts : List Token}
    (hguard : ¬ (n = "if" ∧ ts.head?.any (·.kind.isWord "key") = true))
    (hproperty : ∀ prop o₁ o₂ o₃ us,
      ts ≠ ⟨.mark .dot, o₁⟩ :: ⟨.word prop, o₂⟩ :: ⟨.mark .equals, o₃⟩ :: us)
    (hassign : ∀ o₁ us, ts ≠ ⟨.mark .equals, o₁⟩ :: us) :
    form src p (⟨.word n, o⟩ :: ts)
      = ((verbForm? src n).map fun r => r p ts).getD
          (.error (p.unexpected (⟨.word n, o⟩ :: ts) .command)) := by
  simp only [form, bind_ahead, if_neg hguard]
  split
  · exact absurd rfl (hproperty _ _ _ _ _)
  · exact absurd rfl (hassign _ _)
  · cases verbForm? src n <;> rfl

/-- A line begins with a word. -/
theorem form_of_forall (p : Place) {ts : List Token} (h : ∀ w o us, ts ≠ ⟨.word w, o⟩ :: us) :
    form src p ts = .error (p.unexpected ts .command) := by
  rw [form, bind_ahead]
  split
  · exact absurd rfl (h _ _ _)
  · rfl

theorem exists_of_head?_any {w : String} {ts : List Token}
    (h : ts.head?.any (·.kind.isWord w) = true) : ∃ o us, ts = ⟨.word w, o⟩ :: us := by
  rcases ts with _ | ⟨⟨k, o⟩, us⟩
  · simp at h
  · cases k <;> simp_all [Token.Kind.isWord]

/-- What reads a line, by its first tokens. -/
inductive Dispatched (src : List Char) (p : Place) :
    List Token → Except SyntaxError (Form × List Token) → Prop
  | keyGuard (o o₁ : Nat) (us : List Token) :
      Dispatched src p (⟨.word "if", o⟩ :: ⟨.word "key", o₁⟩ :: us)
        ((Form.trigger <$> keyGuard) p us)
  | property (entity prop : String) (o o₁ o₂ o₃ : Nat) (us : List Token) :
      Dispatched src p
        (⟨.word entity, o⟩ :: ⟨.mark .dot, o₁⟩ :: ⟨.word prop, o₂⟩ :: ⟨.mark .equals, o₃⟩ :: us)
        ((Form.action <$> (Action.setProperty entity prop <$> propertyValue src prop)) p us)
  | assign (name : String) (o o₁ : Nat) (us : List Token) :
      Dispatched src p (⟨.word name, o⟩ :: ⟨.mark .equals, o₁⟩ :: us)
        ((Form.action <$> (Action.assign name <$> exprSource src)) p us)
  | verb {verb : String} {reader : Reader Form} (o : Nat) (us : List Token)
      (h : verbForm? src verb = some reader) :
      Dispatched src p (⟨.word verb, o⟩ :: us) (reader p us)
  | none (us : List Token) : Dispatched src p us (.error (p.unexpected us .command))

/-- **The first tokens of a line decide what reads it.** -/
theorem dispatched_form (src : List Char) (p : Place) (ts : List Token) :
    Dispatched src p ts (form src p ts) := by
  by_cases hword : ∃ w o us, ts = ⟨.word w, o⟩ :: us
  swap
  · rw [form_of_forall p fun w o us heq => hword ⟨w, o, us, heq⟩]
    exact .none ts
  obtain ⟨w, o, us, rfl⟩ := hword
  by_cases hguard : w = "if" ∧ us.head?.any (·.kind.isWord "key") = true
  · obtain ⟨rfl, hkey⟩ := hguard
    obtain ⟨o₁, us, rfl⟩ := exists_of_head?_any hkey
    exact .keyGuard o o₁ us
  by_cases hproperty : ∃ prop o₁ o₂ o₃ vs,
      us = ⟨.mark .dot, o₁⟩ :: ⟨.word prop, o₂⟩ :: ⟨.mark .equals, o₃⟩ :: vs
  · obtain ⟨prop, o₁, o₂, o₃, vs, rfl⟩ := hproperty
    rw [form_property]
    exact .property w prop o o₁ o₂ o₃ vs
  by_cases hassign : ∃ o₁ vs, us = ⟨.mark .equals, o₁⟩ :: vs
  · obtain ⟨o₁, vs, rfl⟩ := hassign
    rw [form_assign]
    exact .assign w o o₁ vs
  rw [form_verb p w o hguard (fun prop o₁ o₂ o₃ vs heq => hproperty ⟨prop, o₁, o₂, o₃, vs, heq⟩)
    fun o₁ vs heq => hassign ⟨o₁, vs, heq⟩]
  cases hverb : verbForm? src w with
  | none => exact .none _
  | some r => exact .verb o us hverb

/-- What a name is declared as is told by what is behind it. -/
theorem form_let (src : List Char) (p : Place) (n : String) (o o₁ o₂ : Nat) (us : List Token) :
    form src p (⟨.word "let", o⟩ :: ⟨.word n, o₁⟩ :: ⟨.mark .equals, o₂⟩ :: us)
      = (Form.action <$> (Action.declare n <$> declaration)) p us := by
  rw [form_verb _ _ _ (by simp) (by simp) (by simp)]
  rfl

/-- A verb with neither a point nor an equals sign behind it. -/
theorem form_of_verb {r : Reader Form} {p : Place} {o : Nat} {t : Token} {ts : List Token}
    (hverb : verbForm? src n = some r) (hdot : t.kind ≠ .mark .dot)
    (hequals : t.kind ≠ .mark .equals) :
    form src p (⟨.word n, o⟩ :: t :: ts) = r p (t :: ts) := by
  rw [form_verb, hverb]
  · rfl
  · rintro ⟨rfl, -⟩
    simp [verbForm?] at hverb
  · rintro prop o₁ o₂ o₃ us heq
    exact hdot (congrArg (fun ts => ts.head?.map Token.kind) heq |> Option.some.inj)
  · rintro o₁ us heq
    exact hequals (congrArg (fun ts => ts.head?.map Token.kind) heq |> Option.some.inj)

theorem GoesOn.of_verb {r r' : Reader Form} (hverb : verbForm? src n = some r)
    (hequals : w.kinds.head? ≠ some (.mark .equals)) (h : r.GoesOn (w :: ws) r') :
    (form src).GoesOn (.name n hn :: w :: ws) r' := by
  refine GoesOn.of_next (fun p o t ts ht => ?_) h
  refine form_of_verb hverb (fun hdot => w.head?_ne_dot ?_) fun heq => hequals ?_
  · rw [ht, hdot]
  · rw [ht, heq]

theorem goesOn_assign : (form src).GoesOn [.name n hn, .equals]
    (Form.action <$> (Action.assign n <$> exprSource src)) := by
  intro p us rest hus _
  obtain ⟨o, vs, rfl, hvs⟩ := exists_of_kinds_cons hus
  obtain ⟨o₁, rfl⟩ := exists_of_kinds_singleton hvs
  exact form_assign p n o o₁ rest

theorem goesOn_property {entity prop : String} (he : isName entity = true)
    (hp : isName prop = true) : (form src).GoesOn [.property entity prop he hp, .equals]
      (Form.action <$> (Action.setProperty entity prop <$> propertyValue src prop)) := by
  intro p us rest hus _
  obtain ⟨o, vs, rfl, hvs⟩ := exists_of_kinds_cons hus
  obtain ⟨o₁, ws, rfl, hws⟩ := exists_of_kinds_cons hvs
  obtain ⟨o₂, xs, rfl, hxs⟩ := exists_of_kinds_cons hws
  obtain ⟨o₃, rfl⟩ := exists_of_kinds_singleton hxs
  exact form_property p entity prop o o₁ o₂ o₃ rest

theorem goesOn_keyGuard {hif : isName "if" = true} {hkey : isName "key" = true}
    {r : Reader Trigger} (h : keyGuard.GoesOn ws r) :
    (form src).GoesOn (.name "if" hif :: .name "key" hkey :: ws) (Form.trigger <$> r) := by
  intro p us rest hus hends
  obtain ⟨o, vs, rfl, hvs⟩ := exists_of_kinds_cons hus
  obtain ⟨o₁, xs, rfl, hxs⟩ := exists_of_kinds_cons hvs
  rw [← h.map Form.trigger p xs rest hxs hends]
  rfl

/-- A word that is not the one asked for stays. -/
theorem GoesOn.of_ne {α : Type} {f : Bool → Reader α} {r : Reader α} {v : String} (hne : n ≠ v)
    (h : (f false).GoesOn (.name n hn :: ws) r) :
    (takesWord v >>= f).GoesOn (.name n hn :: ws) r := by
  intro p us rest hus hends
  rw [← h p us rest hus hends]
  obtain ⟨o, vs, rfl, -⟩ := exists_of_kinds_cons hus
  have htakes : takesWord v p (⟨.word n, o⟩ :: (vs ++ rest))
      = .ok (false, ⟨.word n, o⟩ :: (vs ++ rest)) := by
    simp [takesWord, step, Kind.isWord, hne]
  simp only [List.cons_append, Bind.bind, ReaderT.bind, StateT.bind, Except.bind, htakes]

theorem takes_draw_circle {center : Point} {radius : Expr} (hcenter : center.isCanonical = true)
    (hradius : radius.isCanonical = true) :
    draw.Takes [.name "circle" (by decide), .name "at" (by decide), .point center hcenter,
      .name "radius" (by decide), .expr radius hradius] (.drawCircle center radius) :=
  (takes_takesWord _).bind <| (takes_word _).bind <| (takes_point hcenter).bind <|
    (takes_word _).bind <| (takes_operand hradius).bind (takes_pure _)

theorem takes_draw_line {start finish : Point} {width : Expr} (hstart : start.isCanonical = true)
    (hfinish : finish.isCanonical = true) (hwidth : width.isCanonical = true) :
    draw.Takes [.name "line" (by decide), .name "from" (by decide), .point start hstart,
      .name "to" (by decide), .point finish hfinish, .name "width" (by decide),
      .expr width hwidth] (.drawLine start finish width) :=
  GoesOn.of_ne (by decide) <| (takes_takesWord _).bind <| (takes_word _).bind <|
    (takes_point hstart).bind <| (takes_word _).bind <| (takes_point hfinish).bind <|
    (takes_word _).bind <| (takes_operand hwidth).bind (takes_pure _)

theorem takes_every {seconds : Float} (h : seconds.isFinite = true) :
    every.Takes [.number seconds h, .name "seconds" (by decide), .name "then" (by decide)]
      (.every seconds) :=
  (takes_number h).bind <| (takes_eitherWord _ _).bind <| (takes_word _).bind (takes_pure _)

theorem takes_keyGuard {key : String} (h : Text.lower key.toList = key.toList) :
    keyGuard.Takes [.literal key, .name "down" (by decide), .name "then" (by decide)]
      (.key key) := by
  have hkey : String.ofList (Text.lower key.toList) = key := by rw [h, String.ofList_toList]
  refine (takes_textLiteral key).bind <| (takes_word _).bind <| (takes_word _).bind ?_
  rw [hkey]
  exact takes_pure _

/-! ## 5. The rest of a line -/

theorem rest_of_remainder {p : Place} {ts : List Token} {text : String}
    (h : remainder src p ts = text.toList) (hne : text.toList ≠ []) :
    rest src p ts = .ok (text, []) := by
  simp only [rest, step, h, List.isEmpty_iff, hne, if_false, String.ofList_toList]

theorem exprSource_of_ofText {p : Place} {ts : List Token} {e : Expr} {cs : List Char}
    (h : remainder src p ts = cs) (hne : cs ≠ [])
    (hread : Expr.ofText p.line (p.base + p.offset ts) cs = .ok e) :
    exprSource src p ts = .ok (⟨String.ofList cs, .ok e⟩, []) := by
  simp only [exprSource, step, h, List.isEmpty_iff, hne, if_false, hread]

theorem exprSource_of_remainder {p : Place} {ts : List Token} {e : Expr}
    (he : e.isCanonical = true) (h : remainder src p ts = e.text.toList) :
    exprSource src p ts = .ok (⟨e.text, .ok e⟩, []) := by
  rw [exprSource_of_ofText h (Expr.solid_text he).ne_nil (Expr.ofText_text he _ _),
    String.ofList_toList]

/-! ## 6. Lines -/

theorem endOfLine_nil (p : Place) : Reader.endOfLine p [] = .ok ((), []) := rfl

theorem endOfLine_cons (p : Place) (u : Token) (us : List Token) :
    Reader.endOfLine p (u :: us) = .error (p.unexpected (u :: us) .endOfLine) := rfl

/-- A text is an action if it has the form of one, up to its end. -/
theorem ofText_eq_act_iff {line base : Nat} {a : Action} :
    ofText line base src = .ok (.act a) ↔ ∃ l, Token.lex line base src = .ok l
      ∧ form src ⟨line, base, l.stop⟩ l.tokens = .ok (.action a, []) := by
  rw [ofText]
  cases Token.lex line base src with
  | error e => simp
  | ok l =>
    simp only [Except.ok.injEq, exists_eq_left']
    rcases form src ⟨line, base, l.stop⟩ l.tokens with e | ⟨f, us⟩
    · simp
    cases f with
    | action b =>
      cases us with
      | nil => simp [endOfLine_nil, Except.map]
      | cons u us => simp [endOfLine_cons, Except.map]
    | trigger t =>
      dsimp only
      split_ifs
      · split <;> simp
      · simp

/-- A text is a command under a trigger if the rest of it is the command. -/
theorem ofText_eq_on_iff {line base : Nat} {t : Trigger} {c : Command} :
    ofText line base src = .ok (.on t c)
    ↔ ∃ l us, Token.lex line base src = .ok l
      ∧ form src ⟨line, base, l.stop⟩ l.tokens = .ok (.trigger t, us)
      ∧ remainder src ⟨line, base, l.stop⟩ us ≠ []
      ∧ (remainder src ⟨line, base, l.stop⟩ us).length < src.length
      ∧ ofText line (base + Place.offset ⟨line, base, l.stop⟩ us)
          (remainder src ⟨line, base, l.stop⟩ us) = .ok c := by
  rw [ofText]
  cases Token.lex line base src with
  | error e => simp
  | ok l =>
    simp only [Except.ok.injEq, exists_and_left, exists_eq_left']
    rcases form src ⟨line, base, l.stop⟩ l.tokens with e | ⟨f, us⟩
    · simp
    cases f with
    | action b =>
      cases us with
      | nil => simp [endOfLine_nil, Except.map]
      | cons u us => simp [endOfLine_cons, Except.map]
    | trigger t' =>
      simp only [Except.ok.injEq, Prod.mk.injEq, Form.trigger.injEq]
      constructor
      · intro h
        split_ifs at h with hinner
        refine ⟨us, ?_⟩
        split at h
        · simp at h
        · simp only [Except.ok.injEq, on.injEq] at h
          obtain ⟨rfl, rfl⟩ := h
          exact ⟨⟨rfl, rfl⟩, hinner.1, hinner.2, ‹_›⟩
      · rintro ⟨us', ⟨rfl, rfl⟩, hne, hless, hread⟩
        rw [dif_pos ⟨hne, hless⟩, hread]

/-- A line that is neither blank nor a comment is its trimmed text. -/
theorem ofLine?_of_trim {text : List Char} (htrim : Text.trim text = src) (hne : src ≠ [])
    (hcomment : Token.startsComment src = false) (line : Nat) :
    ofLine? line text = some (ofText line 0 src) := by
  have hline : ¬ (src.isEmpty || Token.startsComment src) = true := by simp [hne, hcomment]
  rw [ofLine?]
  simp only [htrim]
  rw [if_neg hline]

/-- The command of a line, if it is one. -/
def command? (line : Nat) (text : List Char) : Option Command :=
  (ofLine? line text).bind Except.toOption

theorem command?_eq_some_iff {line : Nat} {text : List Char} {c : Command} :
    command? line text = some c ↔ ofLine? line text = some (.ok c) := by
  unfold command?
  rcases ofLine? line text with _ | (e | d) <;> simp [Except.toOption]

/-- A line that is neither a command nor ignored is refused. -/
theorem exists_fault {line : Nat} {text : List Char} (hline : (ofLine? line text).isSome = true)
    (hnone : (command? line text).isNone = true) : ∃ e, ofLine? line text = some (.error e) := by
  unfold command? at hnone
  rcases hr : ofLine? line text with _ | (e | c)
  · simp [hr] at hline
  · exact ⟨e, rfl⟩
  · simp [hr, Except.toOption] at hnone

/-- The words of the command are read as the command wherever they stand in a line. -/
def IsRead (c : Command) : Prop :=
  ∃ (w : Word) (ws : List Word), (w :: ws).map Word.text = c.words
    ∧ ∀ line base, ofText line base (Word.join w ws).text.toList = .ok c

/-- An action that ends with its last word. -/
theorem isRead_of_takes {a : Action} (hwords : (w :: ws).map Word.text = a.words)
    (h : ∀ src, (form src).Takes (w :: ws) (.action a)) : (act a).IsRead := by
  refine ⟨w, ws, hwords, fun line base => ?_⟩
  obtain ⟨ts, hts, hlex⟩ := Token.lex_of_spells (Word.join w ws).spells line base
  rw [Word.kinds_join] at hts
  have hform := h (Word.join w ws).text.toList
    ⟨line, base, Text.byteLength (Word.join w ws).text.toList⟩ ts [] hts (Expr.Symbol.ends_nil _)
  rw [List.append_nil] at hform
  rw [ofText]
  simp only [hlex, hform]
  rfl

/-- A line is cut where the last of its words, or the command behind its trigger, begins. -/
theorem exists_cut_join (w : Word) (ws : List Word) (v : Word) (vs : List Word) (line base : Nat) :
    ∃ ts us lexed, kinds ts = (w :: ws).flatMap Word.kinds ∧ Expr.Symbol.signed.Ends us
      ∧ Token.lex line base (Word.join w (ws ++ v :: vs)).text.toList = .ok lexed
      ∧ lexed.tokens = ts ++ us
      ∧ remainder (Word.join w (ws ++ v :: vs)).text.toList ⟨line, base, lexed.stop⟩ us
        = (Word.join v vs).text.toList := by
  obtain ⟨ts, us, hts, hus, hlex, hrest⟩ := exists_cut (Word.join w ws).spells
    (Word.join v vs).spells (Word.join v vs).ne_nil (Word.join v vs).solid line base
  have htext : (Word.join w (ws ++ v :: vs)).text.toList
      = (Word.join w ws).text.toList ++ ' ' :: (Word.join v vs).text.toList := by
    simp [Word.text_join_append, String.toList_append]
  rw [← htext] at hlex hrest
  rw [Word.kinds_join] at hts hus
  have hends := Word.ends hus (Expr.Symbol.ends_nil _)
  rw [List.append_nil] at hends
  exact ⟨ts, us, _, hts, hends, hlex, rfl, hrest⟩

/-- An action that takes the rest of the line, which is one word. -/
theorem isRead_of_rest {a : Action} (w : Word) (ws : List Word) (v : Word)
    (r : List Char → Reader Action)
    (hwords : (w :: (ws ++ [v])).map Word.text = a.words)
    (h : ∀ src, (form src).GoesOn (w :: ws) (Form.action <$> r src))
    (hr : ∀ src p ts, remainder src p ts = v.text.toList → r src p ts = .ok (a, [])) :
    (act a).IsRead := by
  refine ⟨w, ws ++ [v], hwords, fun line base => ?_⟩
  obtain ⟨ts, us, lexed, hts, hends, hlex, htokens, hrest⟩ := exists_cut_join w ws v [] line base
  have hform := h (Word.join w (ws ++ [v])).text.toList ⟨line, base, lexed.stop⟩ ts us hts hends
  rw [map_eq_ok (hr _ _ _ hrest)] at hform
  rw [ofText]
  simp only [hlex, htokens, hform]
  rfl

/-- A trigger in front of a command. -/
theorem IsRead.on {t : Trigger} {c : Command} (hwords : (w :: ws).map Word.text = t.words)
    (h : ∀ src, (form src).Takes (w :: ws) (.trigger t)) (hc : c.IsRead) :
    (Command.on t c).IsRead := by
  obtain ⟨v, vs, hinner, hread⟩ := hc
  refine ⟨w, ws ++ v :: vs, ?_, fun line base => ?_⟩
  · rw [← List.cons_append, List.map_append, hwords, hinner]
    rfl
  · obtain ⟨ts, us, lexed, hts, hends, hlex, htokens, hrest⟩ := exists_cut_join w ws v vs line base
    have hform : form (Word.join w (ws ++ v :: vs)).text.toList ⟨line, base, lexed.stop⟩ (ts ++ us)
        = .ok (.trigger t, us) := h _ _ ts us hts hends
    have hshort : (Word.join v vs).text.toList.length
        < (Word.join w (ws ++ v :: vs)).text.toList.length := by
      simp only [Word.text_join_append, String.toList_append, List.length_append]
      have hpos := List.length_pos_of_ne_nil (Word.join w ws).solid.ne_nil
      omega
    rw [ofText]
    simp only [hlex, htokens, hform, hrest, hread]
    rw [dif_pos ⟨(Word.join v vs).solid.ne_nil, hshort⟩]

/-! ## 7. Commands -/

/-- A verb whose form ends with its last word. -/
theorem isRead_of_verb {a : Action} {r : Reader Action} (n : String) (hn : isName n = true)
    (w : Word) (ws : List Word) (hverb : ∀ src, verbForm? src n = some (Form.action <$> r))
    (hequals : w.kinds.head? ≠ some (.mark .equals))
    (hwords : (Word.name n hn :: w :: ws).map Word.text = a.words) (h : r.Takes (w :: ws) a) :
    (act a).IsRead :=
  isRead_of_takes hwords fun src => GoesOn.of_verb (hverb src) hequals (h.map Form.action)

theorem isRead_declare {d : Declaration} (hname : isName n = true) (hd : d.isCanonical = true) :
    (act (.declare n d)).IsRead := by
  obtain ⟨ws, hwords, hws⟩ := takes_declaration hd
  refine isRead_of_verb "let" (by decide) (.name n hname) (.equals :: ws) (fun _ => rfl)
    (by simp [Word.name]) ?_ ?_
  · simp only [List.map_cons, hwords]
    rfl
  · exact (takes_identifier hname).bind <| takes_equals.bind (hws.map (Action.declare n))

/-- What follows `make it` and `make background` is one word. -/
theorem isRead_make {token : String} (htoken : Token.isColor token = true) (n : String)
    (hn : isName n = true) (f : String → Action)
    (hwords : ["make", n, token] = (f token).words)
    (h : ∀ src, (make src).GoesOn [.name n hn] (f <$> rest src)) : (act (f token)).IsRead := by
  refine isRead_of_rest (.name "make" (by decide)) [.name n hn] (.color token htoken)
    (fun src => f <$> rest src) hwords ?_ ?_
  · intro src
    exact GoesOn.of_verb rfl (by simp [Word.name]) ((h src).map Form.action)
  · intro src p ts hts
    exact map_eq_ok (rest_of_remainder hts (Word.color token htoken).solid.ne_nil) f

theorem isRead_assign {s : ExprSource} (hn : isName n = true) (hs : s.isCanonical = true) :
    (act (.assign n s)).IsRead := by
  obtain ⟨e, he, rfl⟩ := ExprSource.exists_expr hs
  refine isRead_of_rest (.name n hn) [.equals] (.expr e he)
    (fun src => Action.assign n <$> exprSource src) rfl (fun _ => goesOn_assign) ?_
  exact fun src p ts hts => map_eq_ok (exprSource_of_remainder he hts) _

theorem isRead_setProperty {entity prop : String} {value : PropertyValue}
    (hentity : isName entity = true) (hvalue : value.isCanonical prop = true) :
    (act (.setProperty entity prop value)).IsRead := by
  have hread (v : Word) (hprop : isName prop = true) (hword : v.text = value.word)
      (h : ∀ src p ts, remainder src p ts = v.text.toList →
        propertyValue src prop p ts = .ok (value, [])) :
      (act (.setProperty entity prop value)).IsRead :=
    isRead_of_rest (.property entity prop hentity hprop) [.equals] v
      (fun src => Action.setProperty entity prop <$> propertyValue src prop)
      (by rw [Action.words, ← hword]; rfl) (fun _ => goesOn_property hentity hprop)
      fun src p ts hts => map_eq_ok (h src p ts hts) _
  cases value with
  | number s =>
    obtain ⟨hprop, hs⟩ := Bool.and_eq_true_iff.mp hvalue
    obtain ⟨e, he, rfl⟩ := ExprSource.exists_expr hs
    rw [decide_eq_true_iff] at hprop
    refine hread (.expr e he) ?_ rfl fun src p ts hts => ?_
    · have hall : ∀ q ∈ ["x", "y", "w", "h"], isName q = true := by decide
      exact hall prop hprop
    · rw [propertyValue, if_pos hprop]
      exact map_eq_ok (exprSource_of_remainder he hts) _
  | color token =>
    obtain ⟨hprop, htoken⟩ := Bool.and_eq_true_iff.mp hvalue
    rw [decide_eq_true_iff] at hprop
    have hall : ∀ q ∈ ["colour", "color"], isName q = true ∧ q ∉ ["x", "y", "w", "h"] := by decide
    refine hread (.color token htoken) (hall prop hprop).1 rfl fun src p ts hts => ?_
    rw [propertyValue, if_neg (hall prop hprop).2, if_pos hprop]
    exact map_eq_ok (rest_of_remainder hts (Word.color token htoken).solid.ne_nil) _
  | text t | unknown t => simp [PropertyValue.isCanonical] at hvalue

theorem isRead_act {a : Action} (ha : a.isCanonical = true) : (act a).IsRead := by
  cases a with
  | say t => simp [Action.isCanonical] at ha
  | setColor token =>
    exact isRead_make ha "it" (by decide) Action.setColor rfl fun src =>
      (takes_takesWord _).bind (GoesOn.refl _)
  | setBackground token =>
    exact isRead_make ha "background" (by decide) Action.setBackground rfl fun src =>
      GoesOn.of_ne (by decide) <| (takes_takesWord _).bind (GoesOn.refl _)
  | drawCircle center radius =>
    obtain ⟨hcenter, hradius⟩ := Bool.and_eq_true_iff.mp ha
    exact isRead_of_verb "draw" (by decide) _ _ (fun _ => rfl) (by simp [Word.name]) rfl
      (takes_draw_circle hcenter hradius)
  | drawLine start finish width =>
    simp only [Action.isCanonical, Bool.and_eq_true] at ha
    obtain ⟨⟨hstart, hfinish⟩, hwidth⟩ := ha
    exact isRead_of_verb "draw" (by decide) _ _ (fun _ => rfl) (by simp [Word.name]) rfl
      (takes_draw_line hstart hfinish hwidth)
  | playSound path =>
    refine isRead_of_verb "play" (by decide) (.name "sound" (by decide)) [.literal path]
      (fun _ => rfl) (by simp [Word.name]) rfl ?_
    exact (takes_word _).bind ((takes_textLiteral path).map Action.playSound)
  | declare name value =>
    obtain ⟨hname, hvalue⟩ := Bool.and_eq_true_iff.mp ha
    exact isRead_declare hname hvalue
  | assign name source =>
    obtain ⟨hname, hsource⟩ := Bool.and_eq_true_iff.mp ha
    exact isRead_assign hname hsource
  | setProperty entity property value =>
    obtain ⟨hentity, hvalue⟩ := Bool.and_eq_true_iff.mp ha
    exact isRead_setProperty hentity hvalue
  | add name amount =>
    obtain ⟨hname, hamount⟩ := Bool.and_eq_true_iff.mp ha
    refine isRead_of_verb "add" (by decide) (.name name hname) [.number amount hamount]
      (fun _ => rfl) (by simp [Word.name]) rfl ?_
    exact (takes_identifier hname).bind ((takes_number hamount).map (Action.add name))
  | random range =>
    exact isRead_of_verb "random" (by decide) (.name "from" (by decide)) _ (fun _ => rfl)
      (by simp [Word.name]) rfl ((takes_randomRange ha).map Action.random)
  | rotate entity degrees =>
    obtain ⟨hentity, hdegrees⟩ := Bool.and_eq_true_iff.mp ha
    refine isRead_of_verb "rotate" (by decide) (.name entity hentity)
      [.name "by" (by decide), .number degrees hdegrees, .name "degrees" (by decide)]
      (fun _ => rfl) (by simp [Word.name]) rfl ?_
    exact (takes_identifier hentity).bind <| (takes_word _).bind <|
      (takes_number hdegrees).bind <| (takes_eitherWord _ _).bind (takes_pure _)

/-- Every trigger takes its words. -/
theorem takes_trigger {t : Trigger} (ht : t.isCanonical = true) :
    ∃ (w : Word) (ws : List Word), (w :: ws).map Word.text = t.words
      ∧ ∀ src, (form src).Takes (w :: ws) (.trigger t) := by
  cases t with
  | click =>
    refine ⟨.name "on" (by decide), [.name "click" (by decide)], rfl, fun src => ?_⟩
    exact GoesOn.of_verb rfl (by simp [Word.name]) ((takes_word _).bind (takes_pure _))
  | every seconds =>
    refine ⟨.name "every" (by decide), [.number seconds ht, .name "seconds" (by decide),
      .name "then" (by decide)], rfl, fun src => ?_⟩
    exact GoesOn.of_verb rfl (Decimal.head?_spelling_ne (by decide) seconds)
      ((takes_every ht).map Form.trigger)
  | key name =>
    refine ⟨.name "if" (by decide), [.name "key" (by decide), .literal name,
      .name "down" (by decide), .name "then" (by decide)], rfl, fun src => ?_⟩
    exact goesOn_keyGuard (takes_keyGuard (beq_iff_eq.mp ht))

/-- A canonical command is read wherever its words stand. -/
theorem isRead_of_isCanonical {c : Command} (hc : c.isCanonical = true) : c.IsRead := by
  induction c with
  | act a => exact isRead_act hc
  | on t c ih =>
    obtain ⟨ht, hc⟩ := Bool.and_eq_true_iff.mp hc
    obtain ⟨w, ws, hwords, hform⟩ := takes_trigger ht
    exact IsRead.on hwords hform (ih hc)

/-- **The text of a canonical command is read as that command**, at any depth of triggers and on
every line. -/
theorem ofLine?_text (c : Command) (hc : c.isCanonical = true) (line : Nat) :
    ofLine? line c.text.toList = some (.ok c) := by
  obtain ⟨w, ws, hwords, hread⟩ := isRead_of_isCanonical hc
  have htext : c.text = (Word.join w ws).text := by rw [text, ← hwords, Word.text_join]
  have hsolid := (Word.join w ws).solid
  have hcomment := Token.startsComment_of_spells (Word.join w ws).spells (Word.join w ws).ne_nil
  rw [htext, ofLine?_of_trim (Text.trim_of_solid hsolid) hsolid.ne_nil hcomment, hread]

/-- A key, a timer and a click in front of a label with quotes and a comment sign in its text,
with a minus behind a minus, and with verbs as names. -/
theorem ofLine?_text_nested :
    let label : Declaration := .text "say \"hi\" // no"
      ⟨.binary .sub (.var "draw") (.number (-0.5)), .property "say" "x"⟩ (.neg (.var "let"))
      "#ff8800" "a\\b"
    let c : Command := .on (.key "w") (.on (.every 0.25) (.on .click (.act (.declare "on" label))))
    c.isCanonical = true ∧ ofLine? 7 c.text.toList = some (.ok c) := by
  intro label c
  have hc : c.isCanonical = true := by decide +kernel
  exact ⟨hc, ofLine?_text c hc 7⟩

example : (Command.on (.every 0.5) (.on .click (.act (.rotate "ship" (-90))))).text
    = "every 0.5 seconds then on click rotate ship by -90 degrees" := by
  decide +kernel

end Command
end StageScript

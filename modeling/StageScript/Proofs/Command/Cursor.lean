/-
# Readers stay among their tokens

A reader is given the tokens that are left of a text.  What it leaves is an end of these, and when
it refuses, the fault is at the beginning of such an end: at one of the tokens, or where they stop
(`Within`).  No reader looks anywhere else, so a place in the tokens never has to be checked.

Sequencing keeps this, so the forms of the language have it because their parts do
(`within_form`).  The right side of an assignment is the one part that is read on its own, and the
fault that an assignment keeps is found in the rest of the line behind one of the tokens.
-/
import StageScript.Proofs.Command.Place
import StageScript.Proofs.Command.Quotation

namespace StageScript

variable {α β : Type} {p : Place} {ts us : List Token}

/-! ## 1. Outcomes -/

/-- The result is such a thing, or a fault where an end of the tokens begins. -/
inductive Within (p : Place) (ts : List Token) (R : α → Prop) : Except SyntaxError α → Prop
  | ok {x : α} (h : R x) : Within p ts R (.ok x)
  | error {us : List Token} (cause : SyntaxError.Cause) (h : us <:+ ts) :
      Within p ts R (.error (p.fault us cause))

namespace Within

variable {R R' : α → Prop} {S : β → Prop} {x : Except SyntaxError α}

/-- An end of an end of the tokens is an end of the tokens. -/
theorem mono (h : Within p us R x) (hus : us <:+ ts) (hR : ∀ y, R y → R' y) :
    Within p ts R' x := by
  cases h with
  | ok h => exact .ok (hR _ h)
  | error cause h => exact .error cause (h.trans hus)

theorem map {f : α → β} (h : Within p ts R x) (hf : ∀ y, R y → S (f y)) :
    Within p ts S (x.map f) := by
  cases h with
  | ok h => exact .ok (hf _ h)
  | error cause h => exact .error cause h

theorem bind {f : α → Except SyntaxError β} (h : Within p ts R x)
    (hf : ∀ y, R y → Within p ts S (f y)) : Within p ts S (x.bind f) := by
  cases h with
  | ok h => exact hf _ h
  | error cause h => exact .error cause h

end Within

/-! ## 2. Expressions -/

namespace Expr

/-- The readers of expressions leave ends of these tokens. -/
structure WithinOn (p : Place) (ts : List Token) : Prop where
  signed : Within p ts (fun y => y.2.1 <:+ ts) (signed p ts)
  chain : ∀ l, Within p ts (fun y => y.2.1 <:+ ts) (chain p l ts)
  chainTail : ∀ l left, Within p ts (fun y => y.2.1 <:+ ts) (chainTail p l left ts)

theorem WithinOn.operand (h : WithinOn p ts) (l : Level) :
    Within p ts (fun y => y.2.1 <:+ ts) (operand p l ts) := by
  cases l with
  | sum => simpa only [Expr.operand] using h.chain .product
  | product => simpa only [Expr.operand] using h.signed

theorem within_closing (p : Place) (ts : List Token) :
    Within p ts (fun y => y.1 <:+ ts) (closing p ts) := by
  rw [closing.eq_def]
  split
  · exact .ok (List.suffix_cons _ _)
  · exact .error _ (List.suffix_refl _)

theorem within_signed (ih : ∀ us : List Token, us.length < ts.length → WithinOn p us) :
    Within p ts (fun y => y.2.1 <:+ ts) (signed p ts) := by
  rw [Expr.signed.eq_def]
  split
  · rename_i o us
    have hsigned := (ih us (by simp)).signed
    generalize signed p us = x at hsigned ⊢
    cases hsigned with
    | ok h => exact .ok (h.trans (List.suffix_cons _ _))
    | error cause h => exact .error cause (h.trans (List.suffix_cons _ _))
  · exact .ok (List.suffix_cons _ _)
  · rename_i o _ o₁ _ o₂ us
    exact .ok ⟨[_, _, _], rfl⟩
  · exact .error _ ⟨[_, _], rfl⟩
  · exact .ok (List.suffix_cons _ _)
  · rename_i o us
    have hsum := (ih us (by simp)).chain .sum
    generalize chain p .sum us = x at hsum ⊢
    cases hsum with
    | error cause h => exact .error cause (h.trans (List.suffix_cons _ _))
    | @ok x h =>
      obtain ⟨e, vs, hvs⟩ := x
      have hclosing := within_closing p vs
      dsimp only at h ⊢
      generalize closing p vs = y at hclosing ⊢
      cases hclosing with
      | ok h' => exact .ok ((h'.trans h).trans (List.suffix_cons _ _))
      | error cause h' => exact .error cause ((h'.trans h).trans (List.suffix_cons _ _))
  · exact .error _ (List.suffix_refl _)

theorem within_chain (ih : ∀ us : List Token, us.length < ts.length → WithinOn p us) {l : Level}
    (hoperand : Within p ts (fun y => y.2.1 <:+ ts) (operand p l ts)) :
    Within p ts (fun y => y.2.1 <:+ ts) (chain p l ts) := by
  rw [Expr.chain]
  generalize operand p l ts = x at hoperand ⊢
  cases hoperand with
  | error cause h => exact .error cause h
  | @ok x h =>
    obtain ⟨left, us, hus⟩ := x
    have htail := (ih us hus).chainTail l left
    dsimp only at h ⊢
    generalize chainTail p l left us = y at htail ⊢
    cases htail with
    | ok h' => exact .ok (h'.trans h)
    | error cause h' => exact .error cause (h'.trans h)

theorem within_chainTail (ih : ∀ us : List Token, us.length < ts.length → WithinOn p us)
    (l : Level) (left : Expr) : Within p ts (fun y => y.2.1 <:+ ts) (chainTail p l left ts) := by
  rw [Expr.chainTail.eq_def]
  split
  · rename_i m o us
    split
    · exact .ok (List.suffix_refl _)
    · rename_i op _
      have hoperand := (ih us (by simp)).operand l
      generalize operand p l us = x at hoperand ⊢
      cases hoperand with
      | error cause h => exact .error cause (h.trans (List.suffix_cons _ _))
      | @ok x h =>
        obtain ⟨right, vs, hvs⟩ := x
        have htail := (ih vs (Nat.lt_succ_of_lt hvs)).chainTail l (.binary op left right)
        dsimp only at h ⊢
        generalize chainTail p l (.binary op left right) vs = y at htail ⊢
        cases htail with
        | ok h' => exact .ok ((h'.trans h).trans (List.suffix_cons _ _))
        | error cause h' => exact .error cause ((h'.trans h).trans (List.suffix_cons _ _))
  · exact .ok (List.suffix_refl _)

/-- **The readers of expressions stay among their tokens.** -/
theorem withinOn (p : Place) (ts : List Token) : WithinOn p ts := by
  -- induction on the number of tokens; at the same tokens, from the tighter level to the looser
  induction hlength : ts.length using Nat.strongRecOn generalizing ts with
  | ind k ih =>
    subst hlength
    have ih : ∀ us : List Token, us.length < ts.length → WithinOn p us :=
      fun us hus => ih _ hus us rfl
    have hsigned := within_signed ih
    have hproduct := within_chain (l := .product) ih (by rwa [operand])
    have hsum := within_chain (l := .sum) ih (by rwa [operand])
    refine ⟨hsigned, ?_, within_chainTail ih⟩
    intro l
    cases l with
    | sum => exact hsum
    | product => exact hproduct

end Expr

/-! ## 3. Readers -/

namespace Reader

/-- The reader stays among its tokens, and what it takes is such a thing. -/
def Stays (r : Reader α) (Q : α → Prop) : Prop :=
  ∀ p ts, Within p ts (fun y => y.2 <:+ ts ∧ Q y.1) (r p ts)

variable {r : Reader α} {Q : α → Prop} {S : β → Prop}

theorem Stays.bind {k : α → Reader β} (h : r.Stays Q) (hk : ∀ x, Q x → (k x).Stays S) :
    (r >>= k).Stays S := by
  intro p ts
  have hbind : (r >>= k) p ts = (r p ts).bind fun x => k x.1 p x.2 := rfl
  rw [hbind]
  refine (h p ts).bind ?_
  rintro ⟨x, us⟩ ⟨hus, hx⟩
  exact (hk x hx p us).mono hus fun y hy => ⟨hy.1.trans hus, hy.2⟩

theorem stays_pure {x : α} (h : Q x) : (pure x : Reader α).Stays Q :=
  fun _ ts => .ok ⟨List.suffix_refl ts, h⟩

theorem Stays.map {f : α → β} (h : r.Stays Q) (hf : ∀ x, Q x → S (f x)) : (f <$> r).Stays S :=
  h.bind fun x hx => stays_pure (hf x hx)

theorem stays_unexpected (e : SyntaxError.Expected) : (unexpected e : Reader α).Stays Q :=
  fun _ ts => .error _ (List.suffix_refl ts)

theorem stays_missing (e : SyntaxError.Expected) : (missing e : Reader α).Stays Q :=
  fun _ ts => .error _ (List.suffix_refl ts)

/-- What looks ahead stays where it stays for all that can be ahead. -/
theorem stays_ahead {k : List Token → Reader α} (h : ∀ ts, (k ts).Stays Q) :
    (ahead >>= k).Stays Q :=
  fun p ts => h ts p ts

theorem stays_skip : skip.Stays fun _ => True :=
  fun _ ts => .ok ⟨List.tail_suffix ts, trivial⟩

theorem stays_takesWord (w : String) : (takesWord w).Stays fun _ => True := by
  intro p ts
  unfold takesWord step
  dsimp only
  split
  · split
    · exact .ok ⟨List.suffix_cons _ _, trivial⟩
    · exact .ok ⟨List.suffix_refl _, trivial⟩
  · exact .ok ⟨List.suffix_refl _, trivial⟩

theorem stays_word (w : String) : (word w).Stays fun _ => True := by
  refine (stays_takesWord w).bind ?_
  intro taken _
  cases taken with
  | true => exact stays_pure trivial
  | false => exact stays_missing _

theorem stays_mark (m : Mark) : (mark m).Stays fun _ => True := by
  intro p ts
  unfold mark step
  dsimp only
  split
  · split
    · exact .ok ⟨List.suffix_cons _ _, trivial⟩
    · exact .error _ (List.suffix_refl _)
  · exact .error _ (List.suffix_refl _)

theorem stays_identifier : identifier.Stays fun _ => True := by
  intro p ts
  unfold identifier step
  dsimp only
  split
  · exact .ok ⟨List.suffix_cons _ _, trivial⟩
  · exact .error _ (List.suffix_refl _)

theorem stays_textLiteral : textLiteral.Stays fun _ => True := by
  intro p ts
  unfold textLiteral step
  dsimp only
  split
  · exact .ok ⟨List.suffix_cons _ _, trivial⟩
  · exact .error _ (List.suffix_refl _)

theorem stays_color : color.Stays fun _ => True := by
  intro p ts
  unfold color step
  dsimp only
  split
  · exact .ok ⟨List.suffix_cons _ _, trivial⟩
  · exact .ok ⟨List.suffix_cons _ _, trivial⟩
  · exact .error _ (List.suffix_refl _)

theorem stays_number : number.Stays fun _ => True := by
  intro p ts
  unfold number step
  dsimp only
  split
  · exact .ok ⟨⟨[_, _], rfl⟩, trivial⟩
  · exact .error _ (List.suffix_cons _ _)
  · exact .ok ⟨List.suffix_cons _ _, trivial⟩
  · exact .error _ (List.suffix_refl _)

/-- A number that is not whole is at fault where it begins, not behind it. -/
theorem stays_wholeNumber : wholeNumber.Stays fun _ => True := by
  intro p ts
  have hread : wholeNumber p ts = (number p ts).bind fun x =>
      if (Decimal.Binary.ofFloat x.1).isWhole then .ok ((Decimal.Binary.ofFloat x.1).toInt64, x.2)
      else .error (p.fault ts (.notWhole x.1)) := by
    unfold wholeNumber
    rw [Command.bind_ahead]
    refine congrArg (Except.bind (number p ts)) (funext fun x => ?_)
    dsimp only
    split <;> rfl
  rw [hread]
  refine (stays_number p ts).bind ?_
  rintro ⟨x, us⟩ ⟨hus, -⟩
  dsimp only
  split
  · exact .ok ⟨hus, trivial⟩
  · exact .error _ (List.suffix_refl _)

theorem stays_endOfLine : endOfLine.Stays fun _ => True := by
  intro p ts
  unfold endOfLine step
  dsimp only
  split
  · exact .ok ⟨List.suffix_refl _, trivial⟩
  · exact .error _ (List.suffix_refl _)

end Reader

namespace Expr

theorem stays_reader : reader.Stays fun _ => True :=
  fun p ts => ((withinOn p ts).chain .sum).map fun _ hy => ⟨hy, trivial⟩

theorem stays_operandReader : operandReader.Stays fun _ => True :=
  fun p ts => (withinOn p ts).signed.map fun _ hy => ⟨hy, trivial⟩

theorem stays_whole : whole.Stays fun _ => True :=
  stays_reader.bind fun _ _ => Reader.stays_endOfLine.bind fun _ _ => Reader.stays_pure trivial

end Expr

/-! ## 4. Forms -/

namespace Command

open Reader hiding unexpected missing

variable {src : List Char}

theorem stays_point : point.Stays fun _ => True :=
  (stays_mark _).bind fun _ _ => Expr.stays_reader.bind fun _ _ => (stays_mark _).bind fun _ _ =>
    Expr.stays_reader.bind fun _ _ => (stays_mark _).bind fun _ _ => stays_pure trivial

theorem stays_randomRange : randomRange.Stays fun _ => True :=
  (stays_word _).bind fun _ _ => stays_wholeNumber.bind fun _ _ => (stays_word _).bind fun _ _ =>
    stays_wholeNumber.bind fun _ _ => stays_pure trivial

theorem stays_eitherWord (v w : String) : (eitherWord v w).Stays fun _ => True := by
  refine (stays_takesWord v).bind ?_
  intro taken _
  cases taken with
  | true => exact stays_pure trivial
  | false => exact stays_word w

theorem stays_box : box.Stays fun _ => True :=
  Expr.stays_operandReader.bind fun _ _ => Expr.stays_operandReader.bind fun _ _ =>
    Expr.stays_operandReader.bind fun _ _ => Expr.stays_operandReader.bind fun _ _ =>
      stays_pure trivial

theorem stays_image : image.Stays fun _ => True :=
  stays_textLiteral.bind fun _ _ => (stays_word _).bind fun _ _ => stays_point.bind fun _ _ =>
    (stays_word _).bind fun _ _ => Expr.stays_operandReader.bind fun _ _ =>
      Expr.stays_operandReader.bind fun _ _ => stays_pure trivial

theorem stays_label : label.Stays fun _ => True :=
  stays_textLiteral.bind fun _ _ => (stays_word _).bind fun _ _ => stays_point.bind fun _ _ =>
    (stays_word _).bind fun _ _ => Expr.stays_operandReader.bind fun _ _ =>
      (stays_eitherWord _ _).bind fun _ _ => stays_color.bind fun _ _ =>
        (stays_word _).bind fun _ _ => stays_textLiteral.bind fun _ _ => stays_pure trivial

theorem stays_declaration : declaration.Stays fun _ => True := by
  have hnumber : (Declaration.number <$> Expr.reader).Stays fun _ => True :=
    Expr.stays_reader.map fun _ _ => trivial
  refine stays_ahead ?_
  intro ts
  split
  · dsimp only
    split_ifs
    · exact stays_skip.bind fun _ _ => stays_box
    · exact stays_skip.bind fun _ _ => stays_image
    · exact stays_skip.bind fun _ _ => stays_label
    · exact stays_skip.bind fun _ _ => stays_randomRange.map fun _ _ => trivial
    · exact hnumber
  · exact hnumber

theorem stays_every : every.Stays fun _ => True :=
  stays_number.bind fun _ _ => (stays_eitherWord _ _).bind fun _ _ => (stays_word _).bind fun _ _ =>
    stays_pure trivial

theorem stays_keyGuard : keyGuard.Stays fun _ => True :=
  stays_textLiteral.bind fun _ _ => (stays_word _).bind fun _ _ => (stays_word _).bind fun _ _ =>
    stays_pure trivial

theorem stays_restOrEmpty (src : List Char) : (restOrEmpty src).Stays fun _ => True :=
  fun _ _ => .ok ⟨List.nil_suffix, trivial⟩

theorem stays_rest (src : List Char) : (rest src).Stays fun _ => True := by
  intro p ts
  unfold rest step
  dsimp only
  split
  · exact .error _ (List.suffix_refl _)
  · exact .ok ⟨List.nil_suffix, trivial⟩

theorem stays_restUnquoted (src : List Char) : (restUnquoted src).Stays fun _ => True :=
  (stays_rest src).bind fun _ _ => stays_pure trivial

/-! ## 5. What is kept of a line -/

/-- The fault that a form keeps. -/
def Form.keptFault? : Form → Option SyntaxError
  | .action a => a.keptFault?
  | .trigger _ => none

/-- The form keeps no fault but that of a rest of the line. -/
def Form.KeepsRest (src : List Char) (p : Place) (ts : List Token) (f : Form) : Prop :=
  ∀ e, f.keptFault? = some e →
    ∃ us, us <:+ ts ∧ (Abreast.sourceOf src p us).keptFault? = some e

theorem Form.KeepsRest.of_none {p : Place} {ts : List Token} {f : Form}
    (h : f.keptFault? = none) : f.KeepsRest src p ts := by
  intro e he
  rw [h] at he
  simp at he

theorem stays_make (src : List Char) : (make src).Stays (·.keptFault? = none) := by
  refine (stays_takesWord _).bind ?_
  intro it _
  cases it with
  | true => exact (stays_rest src).map fun _ _ => rfl
  | false =>
    refine (stays_takesWord _).bind ?_
    intro background _
    cases background with
    | true => exact (stays_rest src).map fun _ _ => rfl
    | false => exact stays_unexpected _

theorem stays_draw : draw.Stays (·.keptFault? = none) := by
  refine (stays_takesWord _).bind ?_
  intro circle _
  cases circle with
  | true =>
    exact (stays_word _).bind fun _ _ => stays_point.bind fun _ _ => (stays_word _).bind fun _ _ =>
      Expr.stays_operandReader.bind fun _ _ => stays_pure rfl
  | false =>
    refine (stays_takesWord _).bind ?_
    intro line _
    cases line with
    | true =>
      exact (stays_word _).bind fun _ _ => stays_point.bind fun _ _ =>
        (stays_word _).bind fun _ _ => stays_point.bind fun _ _ => (stays_word _).bind fun _ _ =>
          Expr.stays_operandReader.bind fun _ _ => stays_pure rfl
    | false => exact stays_unexpected _

theorem stays_play : play.Stays (·.keptFault? = none) :=
  (stays_word _).bind fun _ _ => stays_textLiteral.map fun _ _ => rfl

theorem stays_declare : declare.Stays (·.keptFault? = none) :=
  stays_identifier.bind fun _ _ => (stays_mark _).bind fun _ _ =>
    stays_declaration.map fun _ _ => rfl

theorem stays_add : add.Stays (·.keptFault? = none) :=
  stays_identifier.bind fun _ _ => stays_number.map fun _ _ => rfl

theorem stays_rotate : rotate.Stays (·.keptFault? = none) :=
  stays_identifier.bind fun _ _ => (stays_word _).bind fun _ _ => stays_number.bind fun _ _ =>
    (stays_eitherWord _ _).bind fun _ _ => stays_pure rfl

/-- What stands behind a verb keeps no fault. -/
theorem stays_verb {verb : String} {r : Reader Form} (h : verbForm? src verb = some r) :
    r.Stays (·.keptFault? = none) := by
  have haction {r : Reader Action} (hr : r.Stays (·.keptFault? = none)) :
      (Form.action <$> r).Stays (·.keptFault? = none) := hr.map fun _ ha => ha
  unfold verbForm? at h
  split at h
  · exact Option.some.inj h ▸ haction ((stays_restUnquoted src).map fun _ _ => rfl)
  · exact Option.some.inj h ▸ haction (stays_make src)
  · exact Option.some.inj h ▸ haction stays_draw
  · exact Option.some.inj h ▸ haction stays_play
  · exact Option.some.inj h ▸ haction stays_declare
  · exact Option.some.inj h ▸ haction stays_add
  · exact Option.some.inj h ▸ haction (stays_randomRange.map fun _ _ => rfl)
  · exact Option.some.inj h ▸ haction stays_rotate
  · exact Option.some.inj h ▸ (stays_word _).bind fun _ _ => stays_pure rfl
  · exact Option.some.inj h ▸ stays_every.map fun _ _ => rfl
  · simp at h

/-- What is assigned keeps the fault of the rest of the line, if it keeps one. -/
theorem within_source (n : String) (p : Place) (ts : List Token) :
    Within p ts (fun y => y.2 <:+ ts ∧ Form.KeepsRest src p ts y.1)
      ((Form.action <$> (Action.assign n <$> exprSource src)) p ts) :=
  .ok ⟨List.nil_suffix, fun _ he => ⟨ts, List.suffix_refl ts, he⟩⟩

theorem within_propertyValue (entity property : String) (p : Place) (ts : List Token) :
    Within p ts (fun y => y.2 <:+ ts ∧ Form.KeepsRest src p ts y.1)
      ((Form.action <$> (Action.setProperty entity property <$> propertyValue src property))
        p ts) := by
  have hnone {r : Reader PropertyValue} (hr : r.Stays fun v => ∀ s, v ≠ .number s) :
      Within p ts (fun y => y.2 <:+ ts ∧ Form.KeepsRest src p ts y.1)
        ((Form.action <$> (Action.setProperty entity property <$> r)) p ts) := by
    have hform : (Form.action <$> (Action.setProperty entity property <$> r)).Stays
        (·.keptFault? = none) := by
      refine (hr.map (S := (·.keptFault? = none)) fun v hv => ?_).map fun _ ha => ha
      cases v with
      | number s => exact absurd rfl (hv s)
      | _ => rfl
    exact (hform p ts).mono (List.suffix_refl ts) fun y hy => ⟨hy.1, .of_none hy.2⟩
  unfold propertyValue
  split_ifs
  · exact .ok ⟨List.nil_suffix, fun _ he => ⟨ts, List.suffix_refl ts, he⟩⟩
  · exact hnone ((stays_rest src).map fun _ _ => by simp)
  · exact hnone ((stays_restUnquoted src).map fun _ _ => by simp)
  · exact hnone ((stays_restOrEmpty src).map fun _ _ => by simp)

/-- **A form stays among the tokens of its line.**  It leaves an end of them, or it is at fault
where one begins, and a fault that it keeps is that of the rest of the line from such a place. -/
theorem within_form (src : List Char) (p : Place) (ts : List Token) :
    Within p ts (fun y => y.2 <:+ ts ∧ Form.KeepsRest src p ts y.1) (form src p ts) := by
  have hbehind {us : List Token} {x : Except SyntaxError (Form × List Token)} (hus : us <:+ ts)
      (hx : Within p us (fun y => y.2 <:+ us ∧ Form.KeepsRest src p us y.1) x) :
      Within p ts (fun y => y.2 <:+ ts ∧ Form.KeepsRest src p ts y.1) x := by
    refine hx.mono hus ?_
    intro y hy
    refine ⟨hy.1.trans hus, ?_⟩
    intro e he
    obtain ⟨vs, hvs, hkept⟩ := hy.2 e he
    exact ⟨vs, hvs.trans hus, hkept⟩
  have hnone {us : List Token} {r : Reader Form} (hus : us <:+ ts)
      (hr : r.Stays (·.keptFault? = none)) :
      Within p ts (fun y => y.2 <:+ ts ∧ Form.KeepsRest src p ts y.1) (r p us) :=
    (hr p us).mono hus fun y hy => ⟨hy.1.trans hus, .of_none hy.2⟩
  have hdispatched := dispatched_form src p ts
  generalize form src p ts = x at hdispatched ⊢
  cases hdispatched with
  | keyGuard o o₁ us => exact hnone ⟨[_, _], rfl⟩ (stays_keyGuard.map fun _ _ => rfl)
  | property entity prop o o₁ o₂ o₃ us =>
    exact hbehind ⟨[_, _, _, _], rfl⟩ (within_propertyValue entity prop p us)
  | assign name o o₁ us => exact hbehind ⟨[_, _], rfl⟩ (within_source name p us)
  | verb o us hverb => exact hnone (List.suffix_cons _ _) (stays_verb hverb)
  | none => exact .error _ (List.suffix_refl ts)

end Command
end StageScript

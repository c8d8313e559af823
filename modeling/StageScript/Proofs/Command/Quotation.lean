/-
# Quoted texts

A line with `say`, or one that assigns to the property `text`, takes the rest of the line as it
stands, and if there is a quote at each of its ends it takes the quotes off (`Stores`,
`withoutQuotes`).  It does not ask whether these are the quotes of one literal, and it does not read
the escapes in it.  A declaration takes a literal as a token and stores what the token stands for.

So the two agree on literals without a backslash and on no others (`Token.Unescapes.eq_iff`), and of
several literals in a row the outer quotes are lost.
-/
import StageScript.Proofs.Command.Abreast
import StageScript.Proofs.Token.Blanks

namespace StageScript

open Token (Kind Spelled Spells Unescapes isName lexFrom)
open StageScript.Expr (kinds exists_of_kinds_cons)

/-! ## 1. Literals and their insides -/

theorem Token.Unescapes.length_le {inner body : List Char} (h : Unescapes inner body) :
    body.length ≤ inner.length := by
  induction h with
  | nil => exact Nat.le_refl _
  | plain => simpa
  | escape => simp only [List.length_cons]; omega

/-- **A literal stands for its inside**, just if it has no backslash. -/
theorem Token.Unescapes.eq_iff {inner body : List Char} (h : Unescapes inner body) :
    inner = body ↔ '\\' ∉ inner := by
  induction h with
  | nil => simp
  | @plain c inner body hquote hslash h ih => simp [ih, hslash.symm]
  | @escape e d inner body hescape h ih =>
    have hless := h.length_le
    refine iff_of_false (fun heq => ?_) (by simp)
    have hlength := congrArg List.length heq
    simp only [List.length_cons] at hlength
    omega

theorem Token.Spelled.exists_inner {cs : List Char} {t : String} (h : Spelled cs (.text t)) :
    ∃ inner body, cs = '"' :: (inner ++ ['"']) ∧ Unescapes inner body ∧ t = String.ofList body := by
  cases h with
  | text h => exact ⟨_, _, rfl, h, rfl⟩

theorem Token.Spelled.solid_text {cs : List Char} {t : String} (h : Spelled cs (.text t)) :
    Text.Solid cs := by
  obtain ⟨inner, body, rfl, -⟩ := h.exists_inner
  exact ⟨rfl, by rw [← List.cons_append, List.getLast?_concat]; rfl⟩

/-! ## 2. What readers give -/

namespace Reader

variable {α β : Type} {P : α → Prop} {Q : β → Prop}

/-- Whatever the reader takes is such a thing. -/
def Gives (r : Reader α) (P : α → Prop) : Prop := ∀ p ts x us, r p ts = .ok (x, us) → P x

theorem Gives.bind {r : Reader α} {k : α → Reader β} (h : ∀ x, (k x).Gives Q) :
    (r >>= k).Gives Q := by
  intro p ts y us hread
  obtain ⟨x, vs, -, hk⟩ := bind_eq_ok hread
  exact h x p vs y us hk

theorem Gives.map {r : Reader α} {f : α → β} (h : r.Gives fun x => Q (f x)) :
    (f <$> r).Gives Q := by
  intro p ts y us hread
  obtain ⟨x, hr, rfl⟩ := eq_of_map_eq_ok hread
  exact h p ts x us hr

theorem gives_map {r : Reader α} {f : α → β} (h : ∀ x, Q (f x)) : (f <$> r).Gives Q :=
  Gives.map fun _ _ x _ _ => h x

theorem gives_pure {x : α} (h : P x) : (pure x : Reader α).Gives P := by
  intro p ts y us hread
  obtain ⟨rfl, -⟩ := Prod.mk.inj (Except.ok.inj hread)
  exact h

theorem gives_unexpected (e : SyntaxError.Expected) : (unexpected e : Reader α).Gives P := by
  intro p ts y us hread
  simp [unexpected, step] at hread

end Reader

/-! ## 3. Actions that store a text -/

/-- The action says something or assigns to a property. -/
def Action.isTextual : Action → Bool
  | .say _ | .setProperty _ _ _ => true
  | _ => false

/-- The form is such an action. -/
def Command.Form.isTextual : Form → Bool
  | .action a => a.isTextual
  | .trigger _ => false

namespace Command

open Reader (Gives gives_map gives_pure gives_unexpected eq_of_map_eq_ok)

/-- The action stores a text, which stands behind words of these kinds. -/
inductive Stores : Action → List Kind → String → Prop
  | say (s : String) : Stores (.say s) [.word "say"] s
  | text (entity s : String) : Stores (.setProperty entity "text" (.text s))
      [.word entity, .mark .dot, .word "text", .mark .equals] s

variable {src : List Char} {p : Place} {ts us : List Token} {a : Action} {ks : List Kind}
  {s : String}

theorem Stores.isTextual (h : Stores a ks s) : a.isTextual = true := by
  cases h <;> rfl

theorem gives_make (src : List Char) : (make src).Gives (·.isTextual = false) := by
  refine .bind fun it => ?_
  cases it with
  | true => exact gives_map fun _ => rfl
  | false =>
    refine .bind fun background => ?_
    cases background with
    | true => exact gives_map fun _ => rfl
    | false => exact gives_unexpected _

theorem gives_draw : draw.Gives (·.isTextual = false) := by
  refine .bind fun circle => ?_
  cases circle with
  | true => exact .bind fun _ => .bind fun _ => .bind fun _ => .bind fun _ => gives_pure rfl
  | false =>
    refine .bind fun line => ?_
    cases line with
    | true =>
      exact .bind fun _ => .bind fun _ => .bind fun _ => .bind fun _ => .bind fun _ =>
        .bind fun _ => gives_pure rfl
    | false => exact gives_unexpected _

/-- No verb but `say` has a text. -/
theorem gives_verb {verb : String} {r : Reader Form} (h : verbForm? src verb = some r)
    (hsay : verb ≠ "say") : r.Gives (·.isTextual = false) := by
  unfold verbForm? at h
  split at h
  · exact absurd rfl hsay
  · exact Option.some.inj h ▸ (gives_make src).map
  · exact Option.some.inj h ▸ gives_draw.map
  · exact Option.some.inj h ▸ Gives.map (.bind fun _ => gives_map fun _ => rfl)
  · exact Option.some.inj h ▸ Gives.map (.bind fun _ => .bind fun _ => gives_map fun _ => rfl)
  · exact Option.some.inj h ▸ Gives.map (.bind fun _ => gives_map fun _ => rfl)
  · exact Option.some.inj h ▸ Gives.map (gives_map fun _ => rfl)
  · exact Option.some.inj h ▸ Gives.map (.bind fun _ => .bind fun _ => .bind fun _ => .bind fun _ =>
      gives_pure rfl)
  · exact Option.some.inj h ▸ .bind fun _ => gives_pure rfl
  · exact Option.some.inj h ▸ gives_map fun _ => rfl
  · simp at h

/-- **A text is stored behind its words**, and it is the rest of the line without the quotes around
it. -/
theorem exists_of_form (h : form src p ts = .ok (.action a, us)) (hs : Stores a ks s) :
    ∃ ts₀ vs, ts = ts₀ ++ vs ∧ kinds ts₀ = ks ∧ restUnquoted src p vs = .ok (s, us) := by
  have hno {r : Reader Form} {vs : List Token} (hr : r.Gives (·.isTextual = false)) :
      r p vs ≠ .ok (.action a, us) := by
    intro hread
    have htextual : a.isTextual = false := hr p vs _ us hread
    rw [hs.isTextual] at htextual
    exact absurd htextual.symm Bool.false_ne_true
  have hdispatched := dispatched_form src p ts
  generalize form src p ts = x at hdispatched h
  cases hdispatched with
  | none => simp at h
  | keyGuard o o₁ vs => exact absurd h (hno (gives_map fun _ => rfl))
  | assign name o o₁ vs => exact absurd h (hno (.map (gives_map fun _ => rfl)))
  | property entity prop o o₁ o₂ o₃ vs =>
    obtain ⟨b, hb, hab⟩ := eq_of_map_eq_ok h
    obtain rfl := Form.action.inj hab
    obtain ⟨v, hv, rfl⟩ := eq_of_map_eq_ok hb
    cases hs with
    | text =>
      have htext : propertyValue src "text" = PropertyValue.text <$> restUnquoted src := rfl
      rw [htext] at hv
      obtain ⟨s', hs', heq⟩ := eq_of_map_eq_ok hv
      obtain rfl := PropertyValue.text.inj heq
      exact ⟨[_, _, _, _], vs, rfl, rfl, hs'⟩
  | @verb w r o vs hverb =>
    by_cases hsay : w = "say"
    · subst hsay
      obtain rfl : Form.action <$> (Action.say <$> restUnquoted src) = r := Option.some.inj hverb
      obtain ⟨b, hb, hab⟩ := eq_of_map_eq_ok h
      obtain rfl := Form.action.inj hab
      obtain ⟨s', hs', rfl⟩ := eq_of_map_eq_ok hb
      cases hs with
      | say => exact ⟨[_], vs, rfl, rfl, hs'⟩
    · exact absurd h (hno (gives_verb hverb hsay))

/-- What is taken off are the quotes at both ends. -/
theorem withoutQuotes_cases (cs : List Char) :
    (∃ inner, cs = '"' :: (inner ++ ['"']) ∧ withoutQuotes cs = inner)
      ∨ (∀ inner, cs ≠ '"' :: (inner ++ ['"'])) ∧ withoutQuotes cs = cs := by
  by_cases h : ∃ inner, cs = '"' :: (inner ++ ['"'])
  · obtain ⟨inner, rfl⟩ := h
    exact .inl ⟨inner, rfl, by simp [withoutQuotes]⟩
  · refine .inr ⟨fun inner heq => h ⟨inner, heq⟩, ?_⟩
    unfold withoutQuotes
    split
    · rename_i inner
      rw [if_neg]
      intro hlast
      obtain ⟨init, rfl⟩ := List.getLast?_eq_some_iff.mp hlast
      exact h ⟨init, rfl⟩
    · rfl

theorem of_restUnquoted_eq_ok (h : restUnquoted src p ts = .ok (s, us)) :
    remainder src p ts ≠ [] ∧ us = [] ∧ s = String.ofList (withoutQuotes (remainder src p ts)) := by
  rw [Abreast.restUnquoted_eq] at h
  obtain ⟨t, ht, rfl⟩ := eq_of_map_eq_ok h
  simp only [rest, Reader.step] at ht
  split_ifs at ht with hempty
  obtain ⟨rfl, rfl⟩ := Prod.mk.inj (Except.ok.inj ht)
  refine ⟨by simpa using hempty, rfl, ?_⟩
  rw [String.toList_ofList]

/-! ## 4. Declarations -/

/-- The beginning of a line that declares a text. -/
def labelHead (n : String) (literal : List Char) : List Char :=
  "let ".toList ++ (n.toList ++ (" = text ".toList ++ literal))

/-- What is declared by a literal behind `text` has the text that the literal stands for. -/
theorem exists_of_label {o : Nat} {d : Declaration} {t : String}
    (h : label p (⟨.text t, o⟩ :: ts) = .ok (d, us)) :
    ∃ position size color font, d = .text t position size color font := by
  unfold label at h
  obtain ⟨x, vs, hx, hbehind⟩ := Reader.bind_eq_ok h
  obtain ⟨rfl, rfl⟩ := Prod.mk.inj (Except.ok.inj hx)
  refine Gives.bind (Q := fun d => ∃ position size color font,
    d = .text t position size color font) (fun _ => ?_) p _ d us hbehind
  exact .bind fun _ => .bind fun _ => .bind fun _ => .bind fun _ => .bind fun _ =>
    .bind fun _ => .bind fun _ => gives_pure ⟨_, _, _, _, rfl⟩

theorem exists_of_form_let_text {vs : List Token} {n t : String} {f : Form}
    (hts : kinds ts = [.word "let", .word n, .mark .equals, .word "text", .text t])
    (h : form src p (ts ++ us) = .ok (f, vs)) :
    ∃ position size color font, f = .action (.declare n (.text t position size color font)) := by
  obtain ⟨o, xs, rfl, hxs⟩ := exists_of_kinds_cons hts
  obtain ⟨o₁, ys, rfl, hys⟩ := exists_of_kinds_cons hxs
  obtain ⟨o₂, zs, rfl, hzs⟩ := exists_of_kinds_cons hys
  obtain ⟨o₃, ws, rfl, hws⟩ := exists_of_kinds_cons hzs
  obtain ⟨o₄, rfl⟩ := Expr.exists_of_kinds_singleton hws
  simp only [List.cons_append, List.nil_append] at h
  rw [form_let] at h
  obtain ⟨a, ha, rfl⟩ := eq_of_map_eq_ok h
  obtain ⟨d, hd, rfl⟩ := eq_of_map_eq_ok ha
  rw [declaration, bind_ahead] at hd
  have hlabel : label p (⟨.text t, o₄⟩ :: us) = .ok (d, vs) := hd
  obtain ⟨position, size, color, font, rfl⟩ := exists_of_label hlabel
  exact ⟨position, size, color, font, rfl⟩

/-- **A literal that is declared** has the text that it stands for, whatever else is declared. -/
theorem declares_literal {n t : String} {literal : List Char} (hn : isName n = true)
    (h : Spelled literal (.text t)) (more : List Char) {line : Nat} {c : Command}
    (hline : ofLine? line (labelHead n literal ++ ' ' :: more) = some (.ok c)) :
    ∃ position size color font, c = .act (.declare n (.text t position size color font)) := by
  have hname (n : String) (hn : isName n = true) : Spells n.toList [.word n] := .name hn
  have hspells : Spells (labelHead n literal)
      [.word "let", .word n, .mark .equals, .word "text", .text t] :=
    (hname "let" (by decide)).spaced <| (hname n hn).spaced <|
      (Spells.mark (c := '=') rfl).spaced <| (hname "text" (by decide)).spaced <|
      Spells.of_spelled h (by simp)
  obtain ⟨kept, blanks, hmore, hblanks, hlast⟩ := Text.exists_blanks_behind (' ' :: more)
  have hbreaks : Token.Breaks kept := by
    cases kept with
    | nil => rfl
    | cons b kept =>
      obtain ⟨rfl, -⟩ := List.cons.inj hmore
      rfl
  have hsolid : Text.Solid (labelHead n literal ++ kept) := by
    have hletter : Text.Solid "let".toList := ⟨rfl, rfl⟩
    have hhead := hletter.append h.solid_text (' ' :: (n.toList ++ " = text ".toList))
    refine Text.Solid.append_of_getLast? ?_ hlast
    rw [labelHead]
    simpa using hhead
  have htrim : Text.trim (labelHead n literal ++ ' ' :: more) = labelHead n literal ++ kept := by
    rw [hmore, ← List.append_assoc]
    exact Text.trim_append_of_solid hsolid hblanks
  obtain ⟨-, -, hread⟩ := ofText_of_ofLine? hline
  rw [htrim] at hread
  obtain ⟨ts, hts, hlex⟩ := hspells 0 kept hbreaks
  rw [Nat.zero_add] at hlex
  have htokens {l : Token.Line} (hl : Token.lex line 0 (labelHead n literal ++ kept) = .ok l) :
      ∃ us, l.tokens = ts ++ us := by
    have hfrom := (Token.lex_eq_ok_iff.mp hl).symm.trans hlex
    cases hbehind : lexFrom (Text.byteLength (labelHead n literal)) kept with
    | error e =>
      rw [hbehind] at hfrom
      simp [Except.map] at hfrom
    | ok l' =>
      rw [hbehind] at hfrom
      exact ⟨l'.tokens, congrArg Token.Line.tokens (Except.ok.inj hfrom)⟩
  cases c with
  | act a =>
    obtain ⟨l, hl, hform⟩ := ofText_eq_act_iff.mp hread
    obtain ⟨us, hus⟩ := htokens hl
    rw [hus] at hform
    obtain ⟨position, size, color, font, ha⟩ := exists_of_form_let_text hts hform
    exact ⟨position, size, color, font, congrArg act (Form.action.inj ha)⟩
  | on u c =>
    obtain ⟨l, vs, hl, hform, -⟩ := ofText_eq_on_iff.mp hread
    obtain ⟨us, hus⟩ := htokens hl
    rw [hus] at hform
    obtain ⟨position, size, color, font, ha⟩ := exists_of_form_let_text hts hform
    simp at ha

/-! ## 5. Stored texts -/

/-- The kinds of the first tokens of a line, and its rest behind them, without a comment and without
the blanks around it. -/
def splitLine (n : Nat) (line : List Char) : Option (List Kind × List Char) :=
  (lexFrom 0 (Text.trim line)).toOption.map fun l =>
    (kinds (l.tokens.take n), remainder (Text.trim line) ⟨0, 0, l.stop⟩ (l.tokens.drop n))

/-- **Stored texts.**  Where an action stores the rest `r` of a line, `r` is not empty.  If it has a
quote at each of its ends, they are taken off; else it is stored as it stands.  So if `r` is one
literal, what is stored is what the literal stands for just if there is no backslash in it, while a
declaration with the same literal always stores that. -/
theorem stored_texts {text : List Char} {line : Nat}
    (h : ofLine? line text = some (.ok (.act a))) (hs : Stores a ks s) :
    ∃ r, splitLine ks.length text = some (ks, r) ∧ r ≠ []
      ∧ ((∃ inner, r = '"' :: (inner ++ ['"']) ∧ s = String.ofList inner)
        ∨ (∀ inner, r ≠ '"' :: (inner ++ ['"'])) ∧ s = String.ofList r)
      ∧ ∀ t, Spelled r (.text t) → (s = t ↔ '\\' ∉ r)
        ∧ ∀ n more c, isName n = true →
          ofLine? line (labelHead n r ++ ' ' :: more) = some (.ok c) →
          ∃ position size color font, c = .act (.declare n (.text t position size color font)) := by
  obtain ⟨-, -, hread⟩ := ofText_of_ofLine? h
  obtain ⟨l, hlex, hform⟩ := ofText_eq_act_iff.mp hread
  obtain ⟨ts, us, htokens, rfl, hrest⟩ := exists_of_form hform hs
  obtain ⟨hne, -, hstored⟩ := of_restUnquoted_eq_ok hrest
  refine ⟨remainder (Text.trim text) ⟨line, 0, l.stop⟩ us, ?_, hne, ?_, ?_⟩
  · have hlength : (kinds ts).length = ts.length := List.length_map _
    rw [splitLine, Token.lex_eq_ok_iff.mp hlex]
    simp only [Except.toOption, Option.map_some, htokens, hlength, List.take_left, List.drop_left]
    rfl
  · rw [hstored]
    rcases withoutQuotes_cases (remainder (Text.trim text) ⟨line, 0, l.stop⟩ us) with
      ⟨inner, hr, hinner⟩ | ⟨hr, hself⟩
    · exact .inl ⟨inner, hr, congrArg String.ofList hinner⟩
    · exact .inr ⟨hr, congrArg String.ofList hself⟩
  · intro t ht
    refine ⟨?_, fun n more c hn => declares_literal hn ht more⟩
    obtain ⟨inner, body, hr, hinner, rfl⟩ := ht.exists_inner
    have hself : withoutQuotes ('"' :: (inner ++ ['"'])) = inner := by simp [withoutQuotes]
    rw [hstored, hr, hself, String.ofList_inj, hinner.eq_iff]
    simp

/-- A tab in a literal, assigned to a property and declared. -/
theorem stored_texts_tab :
    let r := "\"a\\tb\"".toList
    let assigned := "e.text = ".toList ++ r ++ " // m".toList
    let declared := labelHead "e" r ++ " at (0, 0) size 1 colour red font \"f\"".toList
    ∃ s position size color font,
      ofLine? 1 assigned = some (.ok (.act (.setProperty "e" "text" (.text s))))
        ∧ ofLine? 1 declared
          = some (.ok (.act (.declare "e" (.text "a\tb" position size color font))))
        ∧ s ≠ "a\tb" := by
  intro r assigned declared
  obtain ⟨c, hc, hstores⟩ := (Option.any_eq_true _ _).mp (by decide +kernel :
    (command? 1 assigned).any (fun
      | .act (.setProperty e p (.text _)) => e == "e" && p == "text"
      | _ => false) = true)
  split at hstores
  · rename_i e p s
    obtain ⟨rfl, rfl⟩ : e = "e" ∧ p = "text" := by simpa using hstores
    rw [command?_eq_some_iff] at hc
    obtain ⟨r', hsplit, -, -, hliteral⟩ := stored_texts hc (.text "e" s)
    have hrest : (splitLine 4 assigned).map Prod.snd = some r := by decide +kernel
    have hr : r' = r := Option.some.inj ((congrArg (Option.map Prod.snd) hsplit).symm.trans hrest)
    rw [hr] at hliteral
    have hspelled : Spelled r (.text "a\tb") :=
      .text (.plain (by decide) (by decide) (.escape rfl (.plain (by decide) (by decide) .nil)))
    obtain ⟨hstored, hdeclared⟩ := hliteral _ hspelled
    obtain ⟨c, hc'⟩ := Option.isSome_iff_exists.mp
      (by decide +kernel : (command? 1 declared).isSome = true)
    rw [command?_eq_some_iff] at hc'
    obtain ⟨position, size, color, font, rfl⟩ := hdeclared "e" _ c (by decide) hc'
    refine ⟨s, position, size, color, font, hc, hc', fun heq => ?_⟩
    exact absurd (hstored.mp heq) (by decide)
  · simp at hstores

/-- **An escape is said as it is written.** -/
theorem escape_is_said_as_written :
    let r := "\"a\\\"b\"".toList
    Spelled r (.text "a\"b")
      ∧ ∃ s, ofLine? 1 ("say ".toList ++ r) = some (.ok (.act (.say s))) ∧ s ≠ "a\"b" := by
  intro r
  have hinside : Unescapes "a\\\"b".toList "a\"b".toList :=
    .plain (by decide) (by decide) (.escape rfl (.plain (by decide) (by decide) .nil))
  refine ⟨.text hinside, ?_⟩
  obtain ⟨c, hc, hsaid⟩ := (Option.any_eq_true _ _).mp (by decide +kernel :
    (command? 1 ("say ".toList ++ r)).any (fun
      | .act (.say s) => s != "a\"b"
      | _ => false) = true)
  split at hsaid
  · rename_i s
    exact ⟨s, command?_eq_some_iff.mp hc, by simpa using hsaid⟩
  · simp at hsaid

end Command
end StageScript

/-
# Comments behind a line

A comment goes up to the end of its line, and the tokens of the line stop in front of it.  So a line
with a comment behind it is the same command, and it should not matter which line that is.

It does not matter behind a line that has a comment already: the new one is a part of it.  Behind
the others there is a gap.  A line is trimmed by all blanks, but in front of a comment its blanks
are inside the text, and there those that are not ASCII are tokens (`Token.strays`).  A command that
takes the rest of its line trims it again and is the same (`Prolonged.ofText_act`), and so is one
behind a trigger, because the trigger does it (`Prolonged.ofText_on`).  A command that has to end
with its line is refused (`Prolonged.exists_fault_of_leavesRest`).

The line and the line with its comment are read abreast, with the blanks between them as the tokens
that only the second reading has (`Prolonged`).
-/
import StageScript.Proofs.Command.Expressions
import StageScript.Proofs.Command.Nesting

namespace StageScript

open Token (strays lex lexFrom Line)
open StageScript.Expr (kinds exists_of_kinds_cons)

/-! ## 1. The word `spawn` at the end -/

namespace Command

open Abreast

variable {extra : List Token} {G : SyntaxError → SyntaxError → Prop} {l l' : Line}
  {src src' : List Char} {line base : Nat} {a : Action} {t : Trigger} {c : Command}

/-- The word `spawn` at the end of a declaration is a name. -/
theorem form_let_spawn (src : List Char) (p : Place) (n : String) (o o₁ o₂ o₃ : Nat) :
    form src p [⟨.word "let", o⟩, ⟨.word n, o₁⟩, ⟨.mark .equals, o₂⟩, ⟨.word "spawn", o₃⟩]
      = .ok (.action (.declare n (.number (.var "spawn"))), []) := by
  have hvalue : declaration p [⟨.word "spawn", o₃⟩] = .ok (.number (.var "spawn"), []) :=
    declaration_of_derives (.first (.first (.primary (.var "spawn")))) rfl
      (fun ⟨_, _, hopens⟩ => by simp at hopens)
  rw [form_let]
  exact Reader.map_eq_ok (Reader.map_eq_ok hvalue (Action.declare n)) Form.action

/-- With a token behind it that is no name, it begins a box that has no operands. -/
theorem form_let_spawn_stray (src : List Char) (p : Place) (n s : String) (o o₁ o₂ o₃ o₄ : Nat)
    (us : List Token) :
    form src p (⟨.word "let", o⟩ :: ⟨.word n, o₁⟩ :: ⟨.mark .equals, o₂⟩ :: ⟨.word "spawn", o₃⟩
        :: ⟨.stray s, o₄⟩ :: us)
      = .error (p.unexpected (⟨.stray s, o₄⟩ :: us) .expression) := by
  have hoperand : Expr.operandReader p (⟨.stray s, o₄⟩ :: us)
      = .error (p.unexpected (⟨.stray s, o₄⟩ :: us) .expression) := by
    have hsigned : Expr.signed p (⟨.stray s, o₄⟩ :: us)
        = .error (p.unexpected (⟨.stray s, o₄⟩ :: us) .expression) :=
      signed_of_forall (by rintro k o us ⟨⟩; simp)
    simp only [Expr.operandReader, Reader.step, hsigned, Except.map]
  have hvalue : declaration p (⟨.word "spawn", o₃⟩ :: ⟨.stray s, o₄⟩ :: us)
      = .error (p.unexpected (⟨.stray s, o₄⟩ :: us) .expression) := by
    rw [declaration, bind_ahead]
    show box p (⟨.stray s, o₄⟩ :: us) = _
    simp only [box, Bind.bind, ReaderT.bind, StateT.bind, Except.bind, hoperand]
  rw [form_let]
  exact Reader.map_eq_error (Reader.map_eq_error hvalue (Action.declare n)) Form.action

theorem exists_of_declaresSpawn {ts : List Token} (h : DeclaresSpawn ts) : ∃ n o o₁ o₂ o₃,
    ts = [⟨.word "let", o⟩, ⟨.word n, o₁⟩, ⟨.mark .equals, o₂⟩, ⟨.word "spawn", o₃⟩] := by
  obtain ⟨n, hkinds⟩ := h
  obtain ⟨o, us, rfl, hus⟩ := exists_of_kinds_cons hkinds
  obtain ⟨o₁, vs, rfl, hvs⟩ := exists_of_kinds_cons hus
  obtain ⟨o₂, xs, rfl, hxs⟩ := exists_of_kinds_cons hvs
  obtain ⟨o₃, rfl⟩ := Expr.exists_of_kinds_singleton hxs
  exact ⟨n, o, o₁, o₂, o₃, rfl⟩

/-- Only a number is declared by the name `spawn`. -/
theorem takesRest_of_declaresSpawn {p : Place} {ts us : List Token} {f : Form}
    (h : DeclaresSpawn ts) (hform : form src p ts = .ok (f, us)) :
    ∃ a, f = .action a ∧ a.takesRest = false := by
  obtain ⟨n, o, o₁, o₂, o₃, rfl⟩ := exists_of_declaresSpawn h
  rw [form_let_spawn] at hform
  obtain ⟨rfl, -⟩ := Prod.mk.inj (Except.ok.inj hform)
  exact ⟨_, rfl, rfl⟩

/-! ## 2. A text that goes on -/

/-- Two readings of which only the results matter. -/
def heedless (p q : Place) (extra : List Token)
    (h : ∀ t ∈ extra, ∃ c, t.kind = .stray c) : Abreast where
  here := p
  there := q
  extra := extra
  faults := fun _ _ => True
  stray := h
  unexpected := fun _ _ => trivial
  missing := fun _ _ => trivial
  notWhole := fun _ _ => trivial

/-- The second text has the tokens of the first one and then some outside the language.  The rest of
a line is the same in both, wherever it begins. -/
structure Prolonged (extra : List Token) (G : SyntaxError → SyntaxError → Prop) (l l' : Line)
    (src src' : List Char) : Prop where
  here : lexFrom 0 src = .ok l
  there : lexFrom 0 src' = .ok l'
  tokens : l'.tokens = l.tokens ++ extra
  stray : ∀ t ∈ extra, ∃ c, t.kind = .stray c
  length : src.length ≤ src'.length
  rest : ∀ line base,
    (heedless ⟨line, base, l.stop⟩ ⟨line, base, l'.stop⟩ extra stray).SameRest G src src'

namespace Prolonged

/-- The forms of the two texts, read abreast. -/
theorem exists_form (h : Prolonged extra G l l' src src') {f : Form} {us : List Token}
    (hform : form src ⟨line, base, l.stop⟩ l.tokens = .ok (f, us))
    (hspawn : extra ≠ [] → ¬ DeclaresSpawn l.tokens) :
    ∃ g vs, form src' ⟨line, base, l'.stop⟩ l'.tokens = .ok (g, vs)
      ∧ ((f.Like G g ∧ f.takesRest = true ∧ us = [] ∧ vs = [])
        ∨ (g = f ∧ f.takesRest = false ∧ vs = us ++ extra)) := by
  have hmatches := matches_form (h.rest line base) hspawn
  have htokens : l'.tokens = l.tokens ++ extra := h.tokens
  simp only [heedless] at hmatches
  rw [hform, ← htokens] at hmatches
  generalize form src' ⟨line, base, l'.stop⟩ l'.tokens = y at hmatches ⊢
  cases hmatches with
  | @ok x y hsame =>
    obtain ⟨g, vs⟩ := y
    refine ⟨g, vs, rfl, ?_⟩
    rcases hsame with ⟨⟨hlike, htakes⟩, hus, hvs⟩ | ⟨⟨hg, hleaves⟩, hvs⟩
    · exact .inl ⟨hlike, htakes, hus, hvs⟩
    · exact .inr ⟨hg, hleaves, hvs⟩

/-- **An action that takes the rest of its line**, or any one with no more tokens behind it. -/
theorem ofText_act (h : Prolonged extra G l l' src src')
    (hread : ofText line base src = .ok (.act a)) (ha : extra = [] ∨ a.takesRest = true) :
    ∃ b, ofText line base src' = .ok (.act b) ∧ a.Like G b := by
  obtain ⟨_, hlex, hform⟩ := ofText_eq_act_iff.mp hread
  obtain rfl : l = _ := Except.ok.inj (h.here.symm.trans (Token.lex_eq_ok_iff.mp hlex))
  obtain ⟨g, vs, hform', hcases⟩ := h.exists_form hform fun hextra hspawn => by
    obtain ⟨b, hb, hleaves⟩ := takesRest_of_declaresSpawn hspawn hform
    obtain rfl : a = b := Form.action.inj hb
    rw [hleaves] at ha
    exact ha.elim hextra Bool.false_ne_true
  rcases hcases with ⟨hlike, -, -, rfl⟩ | ⟨rfl, hleaves, hvs⟩
  · cases hlike with
    | action hlike =>
      exact ⟨_, ofText_eq_act_iff.mpr ⟨l', Token.lex_eq_ok_iff.mpr h.there, hform'⟩, hlike⟩
  · obtain rfl : vs = [] := by
      rcases ha with hnil | htakes
      · rw [hvs, hnil, List.append_nil]
      · rw [show a.takesRest = false from hleaves] at htakes
        exact absurd htakes Bool.false_ne_true
    refine ⟨a, ofText_eq_act_iff.mpr ⟨l', Token.lex_eq_ok_iff.mpr h.there, hform'⟩, ?_⟩
    refine .refl ?_ ?_
    · rintro name s rfl
      exact absurd hleaves (by simp [Form.takesRest, Action.takesRest])
    · rintro entity property v rfl
      exact absurd hleaves (by simp [Form.takesRest, Action.takesRest])

/-- **A command behind a trigger**: it is cut out of both texts and trimmed. -/
theorem ofText_on (h : Prolonged extra G l l' src src')
    (hread : ofText line base src = .ok (.on t c)) : ofText line base src' = .ok (.on t c) := by
  obtain ⟨_, us, hlex, hform, hne, hless, hinner⟩ := ofText_eq_on_iff.mp hread
  obtain rfl : l = _ := Except.ok.inj (h.here.symm.trans (Token.lex_eq_ok_iff.mp hlex))
  obtain ⟨g, vs, hform', hcases⟩ := h.exists_form hform fun _ hspawn => by
    obtain ⟨b, hb, -⟩ := takesRest_of_declaresSpawn hspawn hform
    simp at hb
  obtain ⟨rfl, rfl⟩ : g = .trigger t ∧ vs = us ++ extra := by
    rcases hcases with ⟨-, htakes, -⟩ | ⟨rfl, -, rfl⟩
    · simp [Form.takesRest] at htakes
    · exact ⟨rfl, rfl⟩
  have hcut : remainder src' ⟨line, base, l'.stop⟩ (us ++ extra)
      = remainder src ⟨line, base, l.stop⟩ us := (h.rest line base).remainder us
  -- the rest is not empty, so it begins with the same token
  have hplace : Place.offset ⟨line, base, l'.stop⟩ (us ++ extra)
      = Place.offset ⟨line, base, l.stop⟩ us := by
    cases us with
    | nil => exact absurd (remainder_nil _ _) hne
    | cons u us => rfl
  refine ofText_eq_on_iff.mpr ⟨l', us ++ extra, Token.lex_eq_ok_iff.mpr h.there, hform', ?_⟩
  rw [hcut, hplace]
  exact ⟨hne, hless.trans_le h.length, hinner⟩

/-- **An action that leaves the rest of its line** is refused with more tokens behind it. -/
theorem exists_fault_of_leavesRest (h : Prolonged extra G l l' src src')
    (hread : ofText line base src = .ok (.act a)) (hextra : extra ≠ [])
    (ha : a.takesRest = false) :
    ∃ e, ofText line base src' = .error e ∧ e.code = .strayCharacter := by
  obtain ⟨_, hlex, hform⟩ := ofText_eq_act_iff.mp hread
  obtain rfl : l = _ := Except.ok.inj (h.here.symm.trans (Token.lex_eq_ok_iff.mp hlex))
  obtain ⟨⟨k, o₄⟩, more, rfl⟩ := List.exists_cons_of_ne_nil hextra
  obtain ⟨s, rfl⟩ : ∃ s, k = .stray s := h.stray _ List.mem_cons_self
  have hlex' : lex line base src' = .ok l' := Token.lex_eq_ok_iff.mpr h.there
  let p : Place := ⟨line, base, l'.stop⟩
  by_cases hspawn : DeclaresSpawn l.tokens
  · obtain ⟨n, o, o₁, o₂, o₃, htokens⟩ := exists_of_declaresSpawn hspawn
    have hform' := form_let_spawn_stray src' p n s o o₁ o₂ o₃ o₄ more
    have htokens' := h.tokens
    rw [htokens] at htokens'
    refine ⟨p.unexpected (⟨.stray s, o₄⟩ :: more) .expression, ?_, rfl⟩
    rw [ofText, hlex']
    simp only [htokens', List.cons_append, List.nil_append]
    rw [hform']
  · obtain ⟨g, vs, hform', hcases⟩ := h.exists_form hform fun _ => hspawn
    obtain ⟨rfl, rfl⟩ : g = .action a ∧ vs = ⟨.stray s, o₄⟩ :: more := by
      rcases hcases with ⟨-, htakes, -⟩ | ⟨rfl, -, rfl⟩
      · rw [show a.takesRest = true from htakes] at ha
        exact absurd ha.symm Bool.false_ne_true
      · exact ⟨rfl, rfl⟩
    refine ⟨p.unexpected (⟨.stray s, o₄⟩ :: more) .endOfLine, ?_, rfl⟩
    rw [ofText, hlex']
    simp only [hform', endOfLine_cons, Except.map]
    rfl

end Prolonged

end Command

/-! ## 3. Blanks between a line and its comment -/

/-- The same fault, or that of a right side that is empty, `d` bytes further on. -/
def SyntaxError.Late (d : Nat) (e f : SyntaxError) : Prop :=
  f = e ∨ e.cause = .missingExpression ∧ f = e.indent d

section

variable {G : SyntaxError → SyntaxError → Prop}

theorem ExprSource.Like.refl (hG : ∀ e, G e e) (s : ExprSource) : s.Like G s := by
  obtain ⟨text, parsed⟩ := s
  cases parsed with
  | ok e => exact .expr text e
  | error e => exact .fault text (hG e)

theorem ExprSource.Like.eq_or {s t : ExprSource} (h : s.Like G t) :
    t = s ∨ ∃ e f, s.keptFault? = some e ∧ G e f ∧ e ≠ f ∧ t = s.mapFault fun _ => f := by
  cases h with
  | expr text e => exact .inl rfl
  | @fault text e f h =>
    by_cases hef : e = f
    · exact .inl (by rw [hef])
    · exact .inr ⟨e, f, rfl, h, hef, rfl⟩

/-- Two such actions are the same, or the faults that they keep are different. -/
theorem Action.Like.eq_or {a b : Action} (h : a.Like G b) :
    b = a ∨ ∃ e f, a.keptFault? = some e ∧ G e f ∧ e ≠ f ∧ b = a.mapFault fun _ => f := by
  cases h with
  | refl => exact .inl rfl
  | assign name h =>
    rcases h.eq_or with rfl | ⟨e, f, he, hG, hne, rfl⟩
    · exact .inl rfl
    · exact .inr ⟨e, f, he, hG, hne, rfl⟩
  | setProperty entity property h =>
    cases h with
    | refl => exact .inl rfl
    | number h =>
      rcases h.eq_or with rfl | ⟨e, f, he, hG, hne, rfl⟩
      · exact .inl rfl
      · exact .inr ⟨e, f, he, hG, hne, rfl⟩

end

namespace Command

open Abreast

variable {s blanks rest more : List Char} {l : Line}

theorem sourceOf_congr {src src' : List Char} {p q : Place} {ts us : List Token}
    (hline : q.line = p.line) (hbase : q.base = p.base) (hoffset : q.offset us = p.offset ts)
    (h : remainder src' q us = remainder src p ts) : sourceOf src' q us = sourceOf src p ts := by
  simp only [sourceOf, h, hline, hbase, hoffset, Place.fault]

/-- Where nothing is left, the right side is missing. -/
theorem sourceOf_of_remainder_nil {src : List Char} {p : Place} {ts : List Token}
    (h : remainder src p ts = []) :
    sourceOf src p ts = ⟨String.ofList [], .error (p.fault ts .missingExpression)⟩ := by
  simp only [sourceOf, h, List.isEmpty_nil, if_true]

/-- A text with a comment goes on in its comment. -/
theorem prolonged_of_comment (h : lexFrom 0 s = .ok l) (hstop : l.stop ≠ Text.byteLength s)
    (more : List Char) : Prolonged [] Eq l l s (s ++ more) where
  here := h
  there := Token.lexFrom_before_comment h (by rwa [Nat.zero_add]) more
  tokens := (List.append_nil _).symm
  stray := List.forall_mem_nil _
  length := by simp
  rest line base := by
    have hrest (ts : List Token) : remainder (s ++ more) ⟨line, base, l.stop⟩ (ts ++ [])
        = remainder s ⟨line, base, l.stop⟩ ts := by
      rw [List.append_nil, remainder, remainder,
        Text.slice?_append_right (Token.stop_le_of_lexFrom h)]
    refine ⟨hrest, fun ts => ?_⟩
    have hsource := sourceOf_congr rfl rfl (congrArg _ (List.append_nil ts)) (hrest ts)
    exact hsource ▸ .refl (fun _ => rfl) _

/-- With blanks behind the text, and with anything behind these, the rest of it is the same. -/
theorem sameRest_of_blanks (hblanks : ∀ c ∈ blanks, Text.isBlank c = true) (rest : List Char)
    (line base : Nat) :
    (heedless ⟨line, base, Text.byteLength s⟩
        ⟨line, base, Text.byteLength s + Text.byteLength blanks⟩ (strays (Text.byteLength s) blanks)
        fun _ => Token.isStray_of_mem_strays).SameRest
      (SyntaxError.Late (Text.byteLength (blanks.takeWhile Text.isAsciiBlank)))
      s (s ++ (blanks ++ rest)) := by
  let p : Place := ⟨line, base, Text.byteLength s⟩
  let q : Place := ⟨line, base, Text.byteLength s + Text.byteLength blanks⟩
  let us := strays (Text.byteLength s) blanks
  have hcut (lo : Nat) := Text.trim_slice?_before_blanks hblanks s rest lo
  have hoffset : q.offset us
      = Text.byteLength s + Text.byteLength (blanks.takeWhile Text.isAsciiBlank) := by
    have hend : q.offset [] = Text.byteLength s + Text.byteLength blanks := rfl
    have hstrays := offset_strays hend
    rwa [List.append_nil] at hstrays
  have hempty : remainder (s ++ (blanks ++ rest)) q us = [] := by
    rw [remainder, hoffset, hcut, Text.slice?_to_end, Text.dropBytes?_of_le (by omega)]
    rfl
  have hrest (ts : List Token) :
      remainder (s ++ (blanks ++ rest)) q (ts ++ us) = remainder s p ts := by
    cases ts with
    | nil => rw [List.nil_append, hempty, remainder_nil]
    | cons t ts => exact hcut t.offset
  refine ⟨hrest, fun ts => ?_⟩
  cases ts with
  | nil =>
    -- the right side is missed where the first of the blanks is a token
    have hmissed : q.fault us .missingExpression
        = (p.fault [] .missingExpression).indent
            (Text.byteLength (blanks.takeWhile Text.isAsciiBlank)) := by
      refine congrArg (SyntaxError.mk _ line) ?_
      show base + q.offset us + 1 = base + Text.byteLength s + 1 + _
      omega
    have hhere := sourceOf_of_remainder_nil (remainder_nil s p)
    have hthere := sourceOf_of_remainder_nil hempty
    exact hhere ▸ hthere ▸ .fault _ (.inr ⟨rfl, hmissed⟩)
  | cons t ts =>
    have hsource : sourceOf (s ++ (blanks ++ rest)) q (t :: ts ++ us) = sourceOf s p (t :: ts) :=
      sourceOf_congr rfl rfl rfl (hrest (t :: ts))
    exact hsource ▸ .refl (fun _ => .inl rfl) _

/-- A text without a comment goes on with the blanks behind it, up to a comment or the end. -/
theorem prolonged_of_blanks (h : lexFrom 0 s = .ok l) (hstop : l.stop = Text.byteLength s)
    (hne : blanks ≠ []) (hblanks : ∀ c ∈ blanks, Text.isBlank c = true)
    (hrest : rest = [] ∨ ['/', '/'] <+: rest) :
    Prolonged (strays (Text.byteLength s) blanks)
      (SyntaxError.Late (Text.byteLength (blanks.takeWhile Text.isAsciiBlank))) l
      ⟨l.tokens ++ strays (Text.byteLength s) blanks, Text.byteLength s + Text.byteLength blanks⟩
      s (s ++ (blanks ++ rest)) where
  here := h
  there := by
    obtain ⟨b, bs, rfl⟩ := List.exists_cons_of_ne_nil hne
    have hend := Token.lexFrom_end (List.forall_mem_nil _) hrest
      (Text.byteLength s + Text.byteLength (b :: bs))
    rw [List.nil_append] at hend
    rw [List.cons_append, Token.lexFrom_before_blank h (by rw [hstop, Nat.zero_add])
      (hblanks b List.mem_cons_self), ← List.cons_append, Token.lexFrom_between hblanks,
      Nat.zero_add, hend]
    simp [Except.map, Line.behind]
  tokens := rfl
  stray _ := Token.isStray_of_mem_strays
  length := by simp
  rest line base := by
    rw [hstop]
    exact sameRest_of_blanks hblanks rest line base

/-! ## 4. Lines with comments -/

variable {text : List Char} {line : Nat} {c : Command}

/-- The command takes the rest of its line; a trigger does, for the command behind it. -/
def takesRest : Command → Bool
  | .act a => a.takesRest
  | .on _ _ => true

/-- A comment behind the line is told from the line: it has a comment already, no blank at its end
is a token, or the command takes the rest of the line and trims it. -/
def AllowsComment (text : List Char) (c : Command) : Prop :=
  isBare text = false ∨ (∀ b ∈ Text.blanksBehind text, Text.isAsciiBlank b = true)
    ∨ c.takesRest = true

theorem strays_eq_nil_iff {offset : Nat} {cs : List Char} :
    strays offset cs = [] ↔ ∀ b ∈ cs, Text.isAsciiBlank b = true := by
  induction cs generalizing offset with
  | nil => simp [strays]
  | cons b cs ih =>
    rw [strays, List.forall_mem_cons]
    split_ifs with hb
    · simp [ih, hb]
    · simp [hb]

/-- A command has tokens. -/
theorem exists_lexFrom_of_ofText {src : List Char} (h : ofText line 0 src = .ok c) :
    ∃ l, lexFrom 0 src = .ok l ∧ l.tokens ≠ [] := by
  rw [ofText] at h
  cases hlex : lex line 0 src with
  | error e => simp [hlex] at h
  | ok l =>
    refine ⟨l, Token.lex_eq_ok_iff.mp hlex, fun hnil => ?_⟩
    simp [hlex, hnil, form_of_forall] at h

/-- The line goes on as its trimmed text does. -/
theorem Prolonged.ofLine?_eq {extra : List Token} {G : SyntaxError → SyntaxError → Prop} {l' : Line}
    {src src' text' : List Char} (h : Prolonged extra G l l' src src')
    (hread : ofText line 0 src = .ok c) (htrim : Text.trim text' = src') :
    ofLine? line text' = some (ofText line 0 src') := by
  obtain ⟨_, hlex, htokens⟩ := exists_lexFrom_of_ofText hread
  obtain rfl : l = _ := Except.ok.inj (h.here.symm.trans hlex)
  have htokens' : l'.tokens ≠ [] := by
    rw [h.tokens]
    exact List.append_ne_nil_of_left_ne_nil htokens _
  refine ofLine?_of_trim htrim ?_ (Token.startsComment_of_lexFrom h.there htokens') line
  rintro rfl
  have hthere := h.there
  rw [lexFrom] at hthere
  exact htokens' (congrArg Line.tokens (Except.ok.inj hthere)).symm

/-- A comment and the blanks in front of it, behind a trimmed line. -/
theorem exists_trim_append_comment (hsolid : Text.Solid (Text.trim text))
    (htext : text = Text.blanksBefore text ++ (Text.trim text ++ Text.blanksBehind text))
    (m : List Char) : ∃ m', Text.trim (text ++ " //".toList ++ m)
      = Text.trim text ++ (Text.blanksBehind text ++ [' '] ++ '/' :: '/' :: m') := by
  obtain ⟨m', behind, rfl, hbehind, hlast⟩ := Text.exists_blanks_behind m
  have hcomment : Text.Solid (['/', '/'] ++ m') := by
    refine Text.Solid.append_of_getLast? ?_ hlast
    exact ⟨by decide, by decide⟩
  have hbefore : ∀ c ∈ Text.blanksBefore text, Text.isBlank c = true :=
    fun _ => Text.isBlank_of_mem_blanksBefore
  have hline := Text.trim_between (hsolid.append hcomment (Text.blanksBehind text ++ [' ']))
    hbefore hbehind
  have hslashes : " //".toList = [' ', '/', '/'] := rfl
  refine ⟨m', ?_⟩
  conv_lhs => rw [htext, hslashes]
  simpa using hline

/-- **Comments behind a line.**  A line that is a command is the same command with a comment behind
it, at any depth, if the comment can be told from it.  Only the fault of an assignment to nothing is
found further right, where the comment begins.  Any other line is refused with a comment behind it,
for a blank. -/
theorem trailing_comments (h : ofLine? line text = some (.ok c)) (m : List Char) :
    (AllowsComment text c → ∃ c', ofLine? line (text ++ " //".toList ++ m) = some (.ok c')
        ∧ (c' = c ∨ isBare text = true ∧ ∃ a e d, c = .act a ∧ a.keptFault? = some e
            ∧ e.cause = .missingExpression ∧ c' = .act (a.mapFault fun _ => e.indent d)))
      ∧ (¬ AllowsComment text c → ∃ e, ofLine? line (text ++ " //".toList ++ m) = some (.error e)
          ∧ e.code = .strayCharacter) := by
  obtain ⟨hsolid, htext, hread⟩ := ofText_of_ofLine? h
  obtain ⟨m', htrim⟩ := exists_trim_append_comment hsolid htext m
  obtain ⟨l, hlex, -⟩ := exists_lexFrom_of_ofText hread
  by_cases hstop : l.stop = Text.byteLength (Text.trim text)
  · have hbare : isBare text = true := (isBare_iff hlex).mpr hstop
    have hblank : ∀ b ∈ Text.blanksBehind text ++ [' '], Text.isBlank b = true := by
      intro b hb
      rcases List.mem_append.mp hb with hb | hb
      · exact Text.isBlank_of_mem_blanksBehind hb
      · rw [List.mem_singleton.mp hb]
        rfl
    have hgoes := prolonged_of_blanks hlex hstop (by simp) hblank
      (.inr (List.prefix_append ['/', '/'] m'))
    rw [hgoes.ofLine?_eq hread htrim]
    cases c with
    | on t c =>
      exact ⟨fun _ => ⟨_, congrArg some (hgoes.ofText_on hread), .inl rfl⟩,
        fun hno => absurd (.inr (.inr rfl)) hno⟩
    | act a =>
      have hallows : AllowsComment text (act a)
          ↔ strays (Text.byteLength (Text.trim text)) (Text.blanksBehind text ++ [' ']) = []
            ∨ a.takesRest = true := by
        have hspace : Text.isAsciiBlank ' ' = true := rfl
        simp [AllowsComment, hbare, strays_eq_nil_iff, takesRest, or_imp, forall_and, hspace]
      rw [hallows, not_or, Bool.not_eq_true]
      refine ⟨fun htold => ?_, fun ⟨hextra, hleaves⟩ => ?_⟩
      · obtain ⟨b, hb, hlike⟩ := hgoes.ofText_act hread htold
        refine ⟨_, congrArg some hb, ?_⟩
        rcases hlike.eq_or with rfl | ⟨e, f, he, rfl | ⟨hcause, rfl⟩, hne, rfl⟩
        · exact .inl rfl
        · exact absurd rfl hne
        · exact .inr ⟨hbare, a, e, _, rfl, he, hcause, rfl⟩
      · obtain ⟨e, he, hcode⟩ := hgoes.exists_fault_of_leavesRest hread hextra hleaves
        exact ⟨e, congrArg some he, hcode⟩
  · have hbare : isBare text = false := by
      rw [← Bool.not_eq_true, isBare_iff hlex]
      exact hstop
    have hgoes := prolonged_of_comment hlex hstop
      (Text.blanksBehind text ++ [' '] ++ '/' :: '/' :: m')
    rw [hgoes.ofLine?_eq hread htrim]
    refine ⟨fun _ => ⟨c, congrArg some ?_, .inl rfl⟩, fun hno => absurd (.inl hbare) hno⟩
    cases c with
    | on t c => exact hgoes.ofText_on hread
    | act a =>
      obtain ⟨b, hb, hlike⟩ := hgoes.ofText_act hread (.inl rfl)
      rcases hlike.eq_or with rfl | ⟨e, f, -, hef, hne, -⟩
      · exact hb
      · exact absurd hef hne

/-- A comment behind a trigger, an action that has to end with its line, and a blank that is not
ASCII. -/
theorem trailing_comments_click :
    let text := "on click add x 1\u00a0".toList
    isBare text = true ∧ (Text.blanksBehind text).all Text.isAsciiBlank = false
      ∧ ∃ t c, ofLine? 1 text = some (.ok (.on t c))
        ∧ ofLine? 1 (text ++ " //".toList ++ " m".toList) = some (.ok (.on t c)) := by
  intro text
  obtain ⟨c, hc, htrigger⟩ := (Option.any_eq_true _ _).mp (by decide +kernel :
    (command? 1 text).any (fun | .on _ _ => true | .act _ => false) = true)
  cases c with
  | act a => simp at htrigger
  | on t c =>
    rw [command?_eq_some_iff] at hc
    obtain ⟨c', hline, hc'⟩ := (trailing_comments hc " m".toList).1 (.inr (.inr rfl))
    obtain rfl : c' = .on t c := by
      rcases hc' with hc' | ⟨-, a, -, -, ha, -⟩
      · exact hc'
      · simp at ha
    exact ⟨by decide +kernel, by decide +kernel, t, c, hc, hline⟩

/-- **A comment behind a blank that is not ASCII** is not ignored. -/
theorem comment_behind_a_blank :
    let text := "add x 1\u00a0".toList
    ∃ c, ofLine? 1 text = some (.ok c)
      ∧ ofLine? 1 (text ++ " //".toList ++ " m".toList) ≠ some (.ok c) := by
  intro text
  obtain ⟨c, hc⟩ := Option.isSome_iff_exists.mp
    (by decide +kernel : (command? 1 text).isSome = true)
  refine ⟨c, command?_eq_some_iff.mp hc, fun hcomment => ?_⟩
  have hnone : (command? 1 (text ++ " //".toList ++ " m".toList)).isSome = false := by
    decide +kernel
  rw [command?_eq_some_iff.mpr hcomment] at hnone
  exact absurd hnone (by simp)

end Command
end StageScript

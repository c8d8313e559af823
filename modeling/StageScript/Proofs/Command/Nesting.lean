/-
# Commands under triggers

A trigger takes the rest of its line, trims it and reads it as a command of its own.  So a text
behind a trigger is read as it is read alone, at any depth (`ofText_headings`): with the same
tokens, because a heading ends with a word and a blank, and at a place further right.

How far to the right is the one thing that is not plain.  The place of the inner text is taken from
the first token behind the heading.  Blanks that are not ASCII are tokens of their own there, but
they are trimmed off the inner text, so its faults are counted from the first of these blanks and
not from where the text begins (`skipped`).  A text that has no tokens at all, because a literal in
it is broken, is refused before it is cut out, and its fault is where it should be.

A text with a comment behind it is left out (`isBare`): its comment would end the line.
-/
import StageScript.Proofs.Command.Place
import StageScript.Proofs.Token.Blanks

namespace StageScript

open Token (Kind Spells Spelled isName)
open StageScript.Expr (kinds exists_of_kinds_cons)

/-! ## 1. Headings -/

namespace Command

/-- The text of a trigger. -/
inductive Heading : List Char → Trigger → Prop
  | click : Heading "on click".toList .click
  | every {number : List Char} {x : Float} (h : Spelled number (.number x)) :
      Heading ("every ".toList ++ (number ++ " seconds then".toList)) (.every x)
  | key {literal : List Char} {name : String} (h : Spelled literal (.text name)) :
      Heading ("if key ".toList ++ (literal ++ " down then".toList))
        (.key (String.ofList (Text.lower name.toList)))

/-- The texts of triggers, each with a blank behind it. -/
inductive Headings : List Char → List Trigger → Prop
  | one {w : List Char} {t : Trigger} (h : Heading w t) : Headings (w ++ [' ']) [t]
  | more {w ws : List Char} {t : Trigger} {ts : List Trigger} (h : Heading w t)
      (h' : Headings ws ts) : Headings (w ++ ' ' :: ws) (t :: ts)

/-- The command under triggers, the first of them outermost. -/
def under (ts : List Trigger) (c : Command) : Command := ts.foldr on c

variable {w ws a : List Char} {t : Trigger} {ts : List Trigger}

theorem Heading.solid (h : Heading w t) : Text.Solid w := by
  cases h with
  | click => exact ⟨rfl, rfl⟩
  | every | key =>
    refine ⟨rfl, ?_⟩
    simp only [List.getLast?_append, String.toList]
    rfl

/-- A line with a heading is no comment. -/
theorem Heading.startsComment (h : Heading w t) (cs : List Char) :
    Token.startsComment (w ++ cs) = false := by
  cases h with
  | click | every | key => rfl

theorem form_click (src : List Char) (p : Place) (o o₁ : Nat) (us : List Token) :
    form src p (⟨.word "on", o⟩ :: ⟨.word "click", o₁⟩ :: us) = .ok (.trigger .click, us) := by
  rw [form_verb _ _ _ (by simp) (by simp) (by simp)]
  rfl

theorem form_every (src : List Char) (p : Place) (x : Float) (o o₁ o₂ o₃ : Nat) (us : List Token) :
    form src p (⟨.word "every", o⟩ :: ⟨.number x, o₁⟩ :: ⟨.word "seconds", o₂⟩
      :: ⟨.word "then", o₃⟩ :: us) = .ok (.trigger (.every x), us) := by
  rw [form_verb _ _ _ (by simp) (by simp) (by simp)]
  rfl

theorem form_key (src : List Char) (p : Place) (name : String) (o o₁ o₂ o₃ o₄ : Nat)
    (us : List Token) :
    form src p (⟨.word "if", o⟩ :: ⟨.word "key", o₁⟩ :: ⟨.text name, o₂⟩ :: ⟨.word "down", o₃⟩
      :: ⟨.word "then", o₄⟩ :: us)
      = .ok (.trigger (.key (String.ofList (Text.lower name.toList))), us) := by
  rw [form_keyGuard]
  rfl

/-- A heading is read as its trigger, whatever is behind it. -/
theorem Heading.exists_kinds (h : Heading w t) : ∃ k ks, Spells w (k :: ks)
    ∧ ∀ src p ts us, kinds ts = k :: ks → form src p (ts ++ us) = .ok (.trigger t, us) := by
  have hname (n : String) (hn : isName n = true) : Spells n.toList [.word n] := .name hn
  cases h with
  | click =>
    refine ⟨.word "on", [.word "click"],
      (hname "on" (by decide)).spaced (hname "click" (by decide)), ?_⟩
    intro src p ts us hts
    obtain ⟨o, vs, rfl, hvs⟩ := exists_of_kinds_cons hts
    obtain ⟨o₁, rfl⟩ := Expr.exists_of_kinds_singleton hvs
    exact form_click src p o o₁ us
  | @every number x h =>
    refine ⟨.word "every", [.number x, .word "seconds", .word "then"],
      (hname "every" (by decide)).spaced <| (Spells.of_spelled h (by simp)).spaced <|
        (hname "seconds" (by decide)).spaced (hname "then" (by decide)), ?_⟩
    intro src p ts us hts
    obtain ⟨o, vs, rfl, hvs⟩ := exists_of_kinds_cons hts
    obtain ⟨o₁, xs, rfl, hxs⟩ := exists_of_kinds_cons hvs
    obtain ⟨o₂, ys, rfl, hys⟩ := exists_of_kinds_cons hxs
    obtain ⟨o₃, rfl⟩ := Expr.exists_of_kinds_singleton hys
    exact form_every src p x o o₁ o₂ o₃ us
  | @key literal name h =>
    refine ⟨.word "if", [.word "key", .text name, .word "down", .word "then"],
      (hname "if" (by decide)).spaced <| (hname "key" (by decide)).spaced <|
        (Spells.of_spelled h (by simp)).spaced <|
        (hname "down" (by decide)).spaced (hname "then" (by decide)), ?_⟩
    intro src p ts us hts
    obtain ⟨o, vs, rfl, hvs⟩ := exists_of_kinds_cons hts
    obtain ⟨o₁, xs, rfl, hxs⟩ := exists_of_kinds_cons hvs
    obtain ⟨o₂, ys, rfl, hys⟩ := exists_of_kinds_cons hxs
    obtain ⟨o₃, zs, rfl, hzs⟩ := exists_of_kinds_cons hys
    obtain ⟨o₄, rfl⟩ := Expr.exists_of_kinds_singleton hzs
    exact form_key src p name o o₁ o₂ o₃ o₄ us

/-! ## 2. Behind headings -/

open Token (lexFrom strays Line)

/-- No comment ends the trimmed text. -/
def isBare (a : List Char) : Bool :=
  (lexFrom 0 (Text.trim a)).toOption.all fun l => l.stop == Text.byteLength (Text.trim a)

theorem isBare_iff {l : Line} (h : lexFrom 0 (Text.trim a) = .ok l) :
    isBare a = true ↔ l.stop = Text.byteLength (Text.trim a) := by
  simp [isBare, h, Except.toOption]

/-- The tokens of a heading, and then those of the text behind it. -/
theorem Heading.exists_lexFrom (h : Heading w t) (offset : Nat) (cs : List Char) :
    ∃ ts, (∀ src p us, form src p (ts ++ us) = .ok (.trigger t, us))
      ∧ lexFrom offset (w ++ ' ' :: cs)
        = (lexFrom (offset + (Text.byteLength w + 1)) cs).map (Line.behind ts) := by
  obtain ⟨k, ks, hspells, hform⟩ := h.exists_kinds
  obtain ⟨ts, hts, hlex⟩ := hspells offset (' ' :: cs) rfl
  refine ⟨ts, fun src p us => hform src p ts us hts, ?_⟩
  rw [hlex, Token.lexFrom_blank rfl, Nat.add_assoc]

/-- Headings add tokens of their own and move those of the text behind them. -/
theorem Headings.exists_lexFrom (h : Headings ws ts) (offset : Nat) (cs : List Char) :
    ∃ us, lexFrom offset (ws ++ cs)
      = (lexFrom (offset + Text.byteLength ws) cs).map (Line.behind us) := by
  induction h generalizing offset with
  | @one w t h =>
    obtain ⟨us, -, hlex⟩ := h.exists_lexFrom offset cs
    refine ⟨us, ?_⟩
    rw [List.append_assoc, List.singleton_append, hlex, Text.byteLength_append]
    rfl
  | @more w ws t ts h h' ih =>
    obtain ⟨us, -, hlex⟩ := h.exists_lexFrom offset (ws ++ cs)
    obtain ⟨vs, hlex'⟩ := ih (offset + (Text.byteLength w + 1))
    refine ⟨us ++ vs, ?_⟩
    rw [List.append_assoc, List.cons_append, hlex, hlex', Token.map_behind_map,
      Text.byteLength_append, Nat.add_assoc, Nat.add_assoc (Text.byteLength w) 1]
    rfl

/-- The first of the tokens, where those of blanks are in front of them. -/
theorem offset_strays {p : Place} {us : List Token} {lead : List Char} {offset : Nat}
    (h : p.offset us = offset + Text.byteLength lead) :
    p.offset (strays offset lead ++ us)
      = offset + Text.byteLength (lead.takeWhile Text.isAsciiBlank) := by
  induction lead generalizing offset with
  | nil => exact h
  | cons c lead ih =>
    rw [strays, List.takeWhile_cons]
    split_ifs with hc
    · rw [Text.byteLength_cons, ← Nat.add_assoc]
      exact ih (by rw [h, Text.byteLength_cons, Nat.add_assoc])
    · rfl

/-- A trimmed text without a comment begins with a token. -/
theorem head?_of_solid {core : List Char} {l : Line} (h : Text.Solid core)
    (hlex : lexFrom 0 core = .ok l) (hstop : l.stop = Text.byteLength core) :
    l.tokens.head?.map Token.offset = some 0 := by
  obtain ⟨c, cs, rfl⟩ := List.exists_cons_of_ne_nil h.ne_nil
  have hc : Text.isBlank c = false := by simpa using h.1
  refine Token.offset_of_lexFrom hc hlex fun hnil => ?_
  obtain ⟨pieces, blanks, rest, hdivides, rfl⟩ := Token.exists_divides hlex
  obtain rfl := (hdivides.rest_eq_nil_iff 0).mp (hstop.trans (Nat.zero_add _).symm)
  obtain rfl : pieces = [] := by
    cases pieces with
    | nil => rfl
    | cons p ps => simp [Token.placed] at hnil
  have hmem : c ∈ blanks := by
    have htext : c :: cs = blanks := by simpa using hdivides.text
    rw [← htext]
    exact List.mem_cons_self
  rw [Text.isBlank_of_isAsciiBlank (hdivides.blank c hmem)] at hc
  exact absurd hc (by decide)

/-- The place of the tokens is where the first of them begins. -/
theorem offset_moved {core : List Char} {l : Line} (h : Text.Solid core)
    (hlex : lexFrom 0 core = .ok l) (hstop : l.stop = Text.byteLength core) (p : Place) (d : Nat) :
    p.offset (l.tokens.map (.move d)) = d := by
  obtain ⟨t, hhead, ht⟩ := Option.map_eq_some_iff.mp (head?_of_solid h hlex hstop)
  have hmoved : (l.tokens.map (.move d)).head?.map Token.offset = some (t.offset + d) := by
    rw [List.head?_map, hhead]
    rfl
  rw [Place.offset, hmoved, ht, Nat.zero_add]
  rfl

/-- What a trigger takes of a line: the trimmed text behind its heading, from its first token. -/
theorem Heading.exists_rest (h : Heading w t) {lead core : List Char} {l : Line}
    (hlead : ∀ c ∈ lead, Text.isBlank c = true) (hcore : Text.Solid core)
    (hlex : lexFrom 0 core = .ok l) (hstop : l.stop = Text.byteLength core) :
    ∃ ts us, lexFrom 0 (w ++ ' ' :: (lead ++ core))
          = .ok ⟨ts ++ us, Text.byteLength (w ++ ' ' :: (lead ++ core))⟩
      ∧ (∀ src p, form src p (ts ++ us) = .ok (.trigger t, us))
      ∧ ∀ line base, let p : Place :=
            ⟨line, base, Text.byteLength (w ++ ' ' :: (lead ++ core))⟩
          p.offset us
              = Text.byteLength w + 1 + Text.byteLength (lead.takeWhile Text.isAsciiBlank)
            ∧ remainder (w ++ ' ' :: (lead ++ core)) p us = core := by
  obtain ⟨ts, hform, hread⟩ := h.exists_lexFrom 0 (lead ++ core)
  have hlength : Text.byteLength core + (Text.byteLength w + 1 + Text.byteLength lead)
      = Text.byteLength (w ++ ' ' :: (lead ++ core)) := by
    simp only [Text.byteLength_append, Text.byteLength_cons]
    have hblank : ' '.utf8Size = 1 := rfl
    omega
  rw [Token.lexFrom_between hlead, Nat.zero_add, Token.lexFrom_eq_move _ core, hlex] at hread
  simp only [Except.mapError, Except.map, Line.behind, Line.move, hstop, hlength] at hread
  refine ⟨ts, _, hread, fun src p => hform src p _, fun line base => ?_⟩
  have hoffset := offset_strays (p := ⟨line, base, Text.byteLength (w ++ ' ' :: (lead ++ core))⟩)
    (offset_moved hcore hlex hstop _ (Text.byteLength w + 1 + Text.byteLength lead))
  refine ⟨hoffset, ?_⟩
  -- the text is cut in front of the first of its blanks that is a token
  have hsplit : w ++ ' ' :: (lead ++ core) = (w ++ ' ' :: lead.takeWhile Text.isAsciiBlank)
      ++ (lead.dropWhile Text.isAsciiBlank ++ core) := by
    rw [List.append_assoc, List.cons_append, ← List.append_assoc (lead.takeWhile _),
      List.takeWhile_append_dropWhile]
  have hpre : Text.byteLength (w ++ ' ' :: lead.takeWhile Text.isAsciiBlank)
      = Text.byteLength w + 1 + Text.byteLength (lead.takeWhile Text.isAsciiBlank) := by
    rw [Text.byteLength_append, Text.byteLength_cons, Nat.add_assoc]
    rfl
  have hslice := Text.slice?_append (w ++ ' ' :: lead.takeWhile Text.isAsciiBlank)
    (lead.dropWhile Text.isAsciiBlank ++ core)
  rw [← hsplit, hpre] at hslice
  have hblanks (c : Char) (hc : c ∈ lead.dropWhile Text.isAsciiBlank) : Text.isBlank c = true :=
    hlead c ((List.dropWhile_suffix _).subset hc)
  have htrim := Text.trim_between hcore hblanks (List.forall_mem_nil _)
  rw [List.append_nil] at htrim
  rw [remainder, hoffset, hslice, Option.getD_some, htrim]

/-- **A text behind a heading** is read as it is read alone, further right. -/
theorem ofText_heading (h : Heading w t) {lead core : List Char} {l : Line}
    (hlead : ∀ c ∈ lead, Text.isBlank c = true) (hcore : Text.Solid core)
    (hlex : lexFrom 0 core = .ok l) (hstop : l.stop = Text.byteLength core) (line base : Nat) :
    ofText line base (w ++ ' ' :: (lead ++ core))
      = (ofText line (base + (Text.byteLength w + 1
          + Text.byteLength (lead.takeWhile Text.isAsciiBlank))) core).map (on t) := by
  obtain ⟨ts, us, hread, hform, hrest⟩ := h.exists_rest hlead hcore hlex hstop
  obtain ⟨hoffset, hcut⟩ := hrest line base
  have hshort : core.length < (w ++ ' ' :: (lead ++ core)).length := by
    simp only [List.length_append, List.length_cons]
    omega
  rw [ofText, Token.lex_eq_ok_iff.mpr hread]
  simp only [hform, hcut, hoffset]
  rw [dif_pos ⟨hcore.ne_nil, hshort⟩]
  cases ofText line (base + (Text.byteLength w + 1
    + Text.byteLength (lead.takeWhile Text.isAsciiBlank))) core <;> rfl

/-- The tokens of a trimmed text behind headings go up to its end if those of the text do. -/
theorem Headings.exists_stop (h : Headings ws ts) {lead core : List Char} {l : Line}
    (hlead : ∀ c ∈ lead, Text.isBlank c = true) (hlex : lexFrom 0 core = .ok l)
    (hstop : l.stop = Text.byteLength core) : ∃ l', lexFrom 0 (ws ++ (lead ++ core)) = .ok l'
      ∧ l'.stop = Text.byteLength (ws ++ (lead ++ core)) := by
  obtain ⟨us, hread⟩ := h.exists_lexFrom 0 (lead ++ core)
  rw [Token.lexFrom_between hlead, Token.lexFrom_eq_move _ core, hlex] at hread
  refine ⟨_, hread, ?_⟩
  simp only [Line.behind, Line.move, hstop, Text.byteLength_append]
  omega

theorem Headings.solid (h : Headings ws ts) {core : List Char} (hcore : Text.Solid core)
    (lead : List Char) : Text.Solid (ws ++ (lead ++ core)) := by
  cases h with
  | one h =>
    rw [List.append_assoc]
    exact h.solid.append hcore ([' '] ++ lead)
  | @more w ws t ts h h' =>
    rw [List.append_assoc, ← List.append_assoc (' ' :: ws)]
    exact h.solid.append hcore (' ' :: ws ++ lead)

/-- **A text behind headings** is read as it is read alone, further right. -/
theorem ofText_headings (h : Headings ws ts) {lead core : List Char} {l : Line}
    (hlead : ∀ c ∈ lead, Text.isBlank c = true) (hcore : Text.Solid core)
    (hlex : lexFrom 0 core = .ok l) (hstop : l.stop = Text.byteLength core) (line base : Nat) :
    ofText line base (ws ++ (lead ++ core))
      = (ofText line (base + (Text.byteLength ws
          + Text.byteLength (lead.takeWhile Text.isAsciiBlank))) core).map (under ts) := by
  induction h generalizing base with
  | one h =>
    rw [List.append_assoc, List.singleton_append, ofText_heading h hlead hcore hlex hstop,
      Text.byteLength_append]
    rfl
  | @more w ws t ts h h' ih =>
    -- what is behind the first heading is trimmed already
    obtain ⟨l', hlex', hstop'⟩ := h'.exists_stop hlead hlex hstop
    have hfirst := ofText_heading h (List.forall_mem_nil _) (h'.solid hcore lead) hlex' hstop' line
      base
    have hplace : base + (Text.byteLength w + 1 + 0) + (Text.byteLength ws
          + Text.byteLength (lead.takeWhile Text.isAsciiBlank))
        = base + (Text.byteLength (w ++ ' ' :: ws)
          + Text.byteLength (lead.takeWhile Text.isAsciiBlank)) := by
      rw [Text.byteLength_append, Text.byteLength_cons]
      have hblank : ' '.utf8Size = 1 := rfl
      omega
    rw [List.append_assoc, List.cons_append]
    rw [List.nil_append, List.takeWhile_nil, Text.byteLength_nil, ih, hplace] at hfirst
    rw [hfirst]
    cases ofText line _ core <;> rfl

/-- Headings with nothing behind them are refused. -/
theorem Headings.exists_alone (h : Headings ws ts) : ∃ s, ws = s ++ [' '] ∧ Text.Solid s
    ∧ Token.startsComment s = false
    ∧ (∃ l, lexFrom 0 s = .ok l ∧ l.stop = Text.byteLength s)
    ∧ ∀ line base, ∃ e, ofText line base s = .error e := by
  induction h with
  | @one w t h =>
    obtain ⟨k, ks, hspells, hform⟩ := h.exists_kinds
    have hcomment := h.startsComment []
    rw [List.append_nil] at hcomment
    refine ⟨w, rfl, h.solid, hcomment, ?_, fun line base => ?_⟩
    · obtain ⟨ts, -, hlex⟩ := Token.lex_of_spells hspells 0 0
      exact ⟨_, Token.lex_eq_ok_iff.mp hlex, rfl⟩
    · obtain ⟨ts, hts, hlex⟩ := Token.lex_of_spells hspells line base
      have htrigger := hform w ⟨line, base, Text.byteLength w⟩ ts [] hts
      rw [List.append_nil] at htrigger
      rw [ofText]
      simp only [hlex, htrigger, remainder_nil]
      exact ⟨_, rfl⟩
  | @more w ws t ts h h' ih =>
    obtain ⟨s, rfl, hsolid, -, ⟨l, hlex, hstop⟩, hrefused⟩ := ih
    refine ⟨w ++ ' ' :: s, by simp, h.solid.append hsolid [' '], h.startsComment _, ?_,
      fun line base => ?_⟩
    · obtain ⟨ts, us, hread, -⟩ := h.exists_rest (List.forall_mem_nil _) hsolid hlex hstop
      exact ⟨_, hread, rfl⟩
    · have hread := ofText_heading h (List.forall_mem_nil _) hsolid hlex hstop line base
      obtain ⟨e, he⟩ := hrefused line (base + (Text.byteLength w + 1 + 0))
      rw [List.nil_append, List.takeWhile_nil, Text.byteLength_nil, he] at hread
      exact ⟨e, hread⟩

/-! ## 3. Lines -/

/-- A line with headings is no comment. -/
theorem Headings.startsComment (h : Headings ws ts) (cs : List Char) :
    Token.startsComment (ws ++ cs) = false := by
  cases h with
  | one h | more h =>
    rw [List.append_assoc]
    exact h.startsComment _

/-- A trimmed line of headings and a text. -/
theorem Headings.trim_append (h : Headings ws ts) (hsolid : Text.Solid (Text.trim a))
    (ha : a = Text.blanksBefore a ++ (Text.trim a ++ Text.blanksBehind a)) :
    Text.trim (ws ++ a) = ws ++ (Text.blanksBefore a ++ Text.trim a) := by
  have hline : ws ++ a
      = ws ++ (Text.blanksBefore a ++ Text.trim a) ++ Text.blanksBehind a := by
    rw [List.append_assoc, List.append_assoc, ← ha]
  rw [hline]
  exact Text.trim_append_of_solid (h.solid hsolid _) fun c => Text.isBlank_of_mem_blanksBehind

/-- The bytes in front of the trimmed text that count when its place is taken: those up to its
first token, or all of them if it has none. -/
def skipped (a : List Char) : Nat :=
  Text.byteLength (match lexFrom 0 (Text.trim a) with
    | .error _ => Text.blanksBefore a
    | .ok _ => (Text.blanksBefore a).takeWhile Text.isAsciiBlank)

/-- A text that is broken behind headings is broken there. -/
theorem ofText_headings_of_error (h : Headings ws ts) {lead core : List Char} {f : Token.Fault}
    (hlead : ∀ c ∈ lead, Text.isBlank c = true) (hlex : lexFrom 0 core = .error f)
    (line : Nat) : ofText line 0 (ws ++ (lead ++ core))
      = (ofText line (Text.byteLength ws + Text.byteLength lead) core).map (under ts) := by
  obtain ⟨us, hread⟩ := h.exists_lexFrom 0 (lead ++ core)
  rw [Token.lexFrom_between hlead, Nat.zero_add, Token.lexFrom_eq_move _ core, hlex] at hread
  rw [ofText, ofText, Token.lex, Token.lex, hread, hlex]
  refine congrArg Except.error (congrArg (SyntaxError.mk f.cause line) ?_)
  simp only [Token.Fault.move]
  omega

/-- **A line of headings and a text.** -/
theorem ofLine?_headings (h : Headings ws ts) (hsolid : Text.Solid (Text.trim a))
    (ha : a = Text.blanksBefore a ++ (Text.trim a ++ Text.blanksBehind a)) (hbare : isBare a = true)
    (line : Nat) :
    ofLine? line (ws ++ a)
      = some ((ofText line (Text.byteLength ws + skipped a) (Text.trim a)).map (under ts)) := by
  have hblank (c : Char) (hc : c ∈ Text.blanksBefore a) : Text.isBlank c = true :=
    Text.isBlank_of_mem_blanksBefore hc
  rw [ofLine?_of_trim (h.trim_append hsolid ha) (h.solid hsolid _).ne_nil (h.startsComment _),
    skipped]
  refine congrArg some ?_
  cases hlex : lexFrom 0 (Text.trim a) with
  | error f => exact ofText_headings_of_error h hblank hlex line
  | ok l =>
    have hstop := (isBare_iff hlex).mp hbare
    have hread := ofText_headings h hblank hsolid hlex hstop line 0
    rwa [Nat.zero_add] at hread

/-- A text that is no comment, read alone. -/
theorem ofLine?_of_isBare (hsolid : Text.Solid (Text.trim a)) (hbare : isBare a = true)
    (line : Nat) : ofLine? line a = some (ofText line 0 (Text.trim a)) := by
  have hcomment : Token.startsComment (Text.trim a) = false := by
    cases hlex : lexFrom 0 (Text.trim a) with
    | error f =>
      rw [← Bool.not_eq_true]
      intro hcomment
      have hnothing := Token.lexFrom_end (List.forall_mem_nil _)
        (.inr (Token.startsComment_iff.mp hcomment)) 0
      rw [List.nil_append, hlex] at hnothing
      simp at hnothing
    | ok l =>
      have hstop := (isBare_iff hlex).mp hbare
      refine Token.startsComment_of_lexFrom hlex fun hnil => ?_
      have hhead := head?_of_solid hsolid hlex hstop
      simp [hnil] at hhead
  exact ofLine?_of_trim rfl hsolid.ne_nil hcomment line

/-- Headings with nothing but blanks behind them. -/
theorem ofLine?_headings_alone (h : Headings ws ts) (ha : ∀ c ∈ a, Text.isBlank c = true)
    (line : Nat) : ∃ e, ofLine? line (ws ++ a) = some (.error e) := by
  obtain ⟨s, rfl, hsolid, hcomment, -, hrefused⟩ := h.exists_alone
  obtain ⟨e, he⟩ := hrefused line 0
  have htrim : Text.trim (s ++ [' '] ++ a) = s := by
    rw [List.append_assoc]
    refine Text.trim_append_of_solid hsolid fun c hc => ?_
    rcases List.mem_cons.mp hc with rfl | hc
    · rfl
    · exact ha c hc
  refine ⟨e, ?_⟩
  rw [ofLine?_of_trim htrim hsolid.ne_nil hcomment, he]

/-- **A line behind headings** is refused if the text alone is no command and no fault, and else it
is what the text alone is, further right. -/
theorem ofLine?_headings_cases (h : Headings ws ts) (hbare : isBare a = true) (line : Nat) :
    (ofLine? line a = none ∧ ∃ e, ofLine? line (ws ++ a) = some (.error e))
      ∨ ∃ r, ofLine? line a = some r ∧ ofLine? line (ws ++ a)
          = some ((r.mapError (.indent (Text.byteLength ws + skipped a))).map fun c =>
              under ts (c.mapFault (.indent (Text.byteLength ws + skipped a)))) := by
  rcases Text.eq_trim a with hblank | ⟨hsolid, ha⟩
  · refine .inl ⟨?_, ofLine?_headings_alone h hblank line⟩
    rw [ofLine?, Text.trim_eq_nil hblank]
    rfl
  · refine .inr ⟨_, ofLine?_of_isBare hsolid hbare line, ?_⟩
    have hindent := ofText_indent (Text.byteLength ws + skipped a) line 0 (Text.trim a)
    rw [Nat.zero_add] at hindent
    rw [ofLine?_headings h hsolid ha hbare, hindent]
    cases ofText line 0 (Text.trim a) <;> rfl

theorem keptFault?_under (ts : List Trigger) (c : Command) :
    (under ts c).keptFault? = c.keptFault? := by
  induction ts with
  | nil => rfl
  | cons t ts ih => exact ih

/-- All bytes in front of the trimmed text count, just if its blanks are ASCII or it has no
tokens. -/
theorem skipped_eq_iff : skipped a = Text.byteLength (Text.blanksBefore a)
    ↔ (∃ f, lexFrom 0 (Text.trim a) = .error f)
      ∨ ∀ c ∈ Text.blanksBefore a, Text.isAsciiBlank c = true := by
  unfold skipped
  cases lexFrom 0 (Text.trim a) with
  | error f => simp
  | ok l =>
    have hsplit := List.takeWhile_append_dropWhile (p := Text.isAsciiBlank)
      (l := Text.blanksBefore a)
    have hlength := congrArg Text.byteLength hsplit
    rw [Text.byteLength_append] at hlength
    have hdrop := List.dropWhile_eq_nil_iff (p := Text.isAsciiBlank) (l := Text.blanksBefore a)
    simp only [reduceCtorEq, exists_false, false_or]
    rw [← hdrop]
    constructor
    · intro heq
      by_contra hne
      have hpos := Token.byteLength_pos hne
      omega
    · intro hnil
      rw [hnil, Text.byteLength_nil] at hlength
      omega

/-! ## 4. Nesting -/

/-- **Nesting is transparent.**  A text without a comment is a command behind headings just if it
is one alone, and then it is that command under the triggers of the headings.  Only the column of a
fault that the command keeps is another one: it is counted from the beginning of the line, and so
it moves by the bytes in front of the text, as long as these are headings and ASCII blanks. -/
theorem nesting_is_transparent (h : Headings ws ts) (hbare : isBare a = true) (line : Nat) :
    ∃ d, (∀ c', ofLine? line (ws ++ a) = some (.ok c')
          ↔ ∃ c, ofLine? line a = some (.ok c) ∧ c' = under ts (c.mapFault (.indent d)))
      ∧ ((∀ c ∈ Text.blanksBefore a, Text.isAsciiBlank c = true) →
          d = Text.byteLength ws + Text.byteLength (Text.blanksBefore a)) := by
  refine ⟨Text.byteLength ws + skipped a, fun c' => ?_, fun hascii => ?_⟩
  · rcases ofLine?_headings_cases h hbare line with ⟨ha, e, hline⟩ | ⟨r, ha, hline⟩
    · rw [ha, hline]
      simp
    · rw [ha, hline]
      cases r with
      | error e => simp [Except.mapError, Except.map]
      | ok c => simp [Except.mapError, Except.map, eq_comm]
  · rw [skipped_eq_iff.mpr (.inr hascii)]

/-- A click and a key in front of a right side that is no expression. -/
theorem nesting_is_transparent_key :
    let ws := "on click if key \"W\" down then ".toList
    let ts := [Trigger.click, .key "w"]
    let a := "\tx = 1 +".toList
    Headings ws ts ∧ isBare a = true
      ∧ ∃ c, ofLine? 1 a = some (.ok c)
        ∧ ofLine? 1 (ws ++ a) = some (.ok (under ts (c.mapFault (.indent 31)))) := by
  intro ws ts a
  have hkey : Spelled "\"W\"".toList (.text "W") :=
    .text (.plain (by decide) (by decide) .nil)
  have hws : Headings ws ts := .more .click (.one (.key hkey))
  have hbare : isBare a = true := by decide +kernel
  obtain ⟨d, hline, hd⟩ := nesting_is_transparent hws hbare 1
  have hblanks : Text.blanksBefore a = ['\t'] := by decide +kernel
  have hplace : Text.byteLength ws + Text.byteLength ['\t'] = 31 := by decide +kernel
  rw [hblanks, hplace] at hd
  obtain rfl : d = 31 := hd (List.forall_mem_singleton.mpr rfl)
  obtain ⟨c, hc⟩ := Option.isSome_iff_exists.mp
    (by decide +kernel : (command? 1 a).isSome = true)
  rw [command?_eq_some_iff] at hc
  exact ⟨hws, hbare, c, hc, (hline _).mpr ⟨c, hc, rfl⟩⟩

/-- **A kept fault is not the same behind a heading**: it is counted from the beginning of the
line. -/
theorem kept_fault_moves_behind_click :
    ∃ c, ofLine? 1 "x = 1 +".toList = some (.ok c) ∧ isBare "x = 1 +".toList = true
      ∧ ofLine? 1 ("on click ".toList ++ "x = 1 +".toList) ≠ some (.ok (.on .click c)) := by
  obtain ⟨c, hc⟩ := Option.isSome_iff_exists.mp
    (by decide +kernel : (command? 1 "x = 1 +".toList).isSome = true)
  refine ⟨c, command?_eq_some_iff.mp hc, by decide +kernel, fun hclick => ?_⟩
  rw [← command?_eq_some_iff] at hclick
  have hcolumns := congrArg (fun c : Option Command => (c.bind keptFault?).map (·.column))
    (hclick.trans (congrArg (Option.map (on .click)) hc.symm))
  exact absurd hcolumns (by decide +kernel)

/-- **Faults behind headings.**  The trimmed line is the headings, the blanks in front of the text
and the trimmed text.  Where the text alone is refused, the line is refused for the same reason, and
where it keeps a fault, the line keeps it for the same reason.  The columns of both are further
right by the bytes of the headings and of the blanks up to the first token of the text.  These are
all the bytes in front of the trimmed text, just if its blanks are ASCII or it has no tokens. -/
theorem faults_behind_headings (h : Headings ws ts) (hbare : isBare a = true) (line : Nat) :
    (Text.trim a ≠ [] → Text.trim (ws ++ a) = ws ++ Text.blanksBefore a ++ Text.trim a)
      ∧ (∀ e, ofLine? line a = some (.error e) →
          ofLine? line (ws ++ a) = some (.error (e.indent (Text.byteLength ws + skipped a))))
      ∧ (∀ c, ofLine? line a = some (.ok c) → ∃ c', ofLine? line (ws ++ a) = some (.ok c')
          ∧ c' = under ts (c.mapFault (.indent (Text.byteLength ws + skipped a)))
          ∧ c'.keptFault? = c.keptFault?.map (.indent (Text.byteLength ws + skipped a)))
      ∧ (skipped a = Text.byteLength (Text.blanksBefore a)
          ↔ (∃ f, lexFrom 0 (Text.trim a) = .error f)
            ∨ ∀ c ∈ Text.blanksBefore a, Text.isAsciiBlank c = true) := by
  have hcases := ofLine?_headings_cases h hbare line
  refine ⟨fun hne => ?_, fun e he => ?_, fun c hc => ?_, skipped_eq_iff⟩
  · rcases Text.eq_trim a with hblank | ⟨hsolid, ha⟩
    · exact absurd (Text.trim_eq_nil hblank) hne
    · rw [h.trim_append hsolid ha, List.append_assoc]
  · rcases hcases with ⟨ha, -⟩ | ⟨r, ha, hline⟩
    · simp [ha] at he
    · obtain rfl : r = .error e := Option.some.inj (ha.symm.trans he)
      exact hline
  · rcases hcases with ⟨ha, -⟩ | ⟨r, ha, hline⟩
    · simp [ha] at hc
    · obtain rfl : r = .ok c := Option.some.inj (ha.symm.trans hc)
      exact ⟨_, hline, rfl, by rw [keptFault?_under, keptFault?_mapFault]⟩

/-- A word that is no verb behind two headings and a blank that is not ASCII. -/
theorem faults_behind_headings_jump :
    let ws := "on click every .5 seconds then ".toList
    let a := " \u00a0jump".toList
    Headings ws [.click, .every (Token.numberValue ".5".toList)] ∧ isBare a = true
      ∧ ∃ e, ofLine? 1 a = some (.error e) ∧ ofLine? 1 (ws ++ a) = some (.error (e.indent 32)) := by
  intro ws a
  have hdigits : Token.IsDigits ['5'] := ⟨by simp, by simp [Char.isDigit]⟩
  have hws : Headings ws [.click, .every (Token.numberValue ".5".toList)] :=
    .more .click (.one (.every (.pointed (.inl hdigits))))
  have hbare : isBare a = true := by decide +kernel
  have hplace : Text.byteLength ws + skipped a = 32 := by decide +kernel
  obtain ⟨-, hfault, -, -⟩ := faults_behind_headings hws hbare 1
  rw [hplace] at hfault
  obtain ⟨e, he⟩ : ∃ e, ofLine? 1 a = some (.error e) :=
    exists_fault (by decide +kernel) (by decide +kernel)
  exact ⟨hws, hbare, e, he, hfault e he⟩

/-- The column of the fault for which a line is refused. -/
def faultColumn? (r : Option (Except SyntaxError Command)) : Option Nat :=
  match r with
  | some (.error e) => some e.column
  | _ => none

/-- **A fault behind a heading and a blank that is not ASCII** is not where the word is that is no
verb. -/
theorem fault_before_the_word :
    let line := "on click ".toList ++ "\u00a0jump".toList
    Text.trim line = "on click \u00a0".toList ++ Text.trim "\u00a0jump".toList
      ∧ isBare "\u00a0jump".toList = true
      ∧ faultColumn? (ofLine? 1 "\u00a0jump".toList) = some 1
      ∧ faultColumn? (ofLine? 1 line)
        ≠ some (1 + Text.byteLength "on click \u00a0".toList) := by
  refine ⟨by decide +kernel, by decide +kernel, by decide +kernel, by decide +kernel⟩

end Command
end StageScript

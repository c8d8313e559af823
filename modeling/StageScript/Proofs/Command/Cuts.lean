/-
# Where a line is cut

A form that takes the rest of its line cuts it from the byte of the token that comes next to the
byte at which the tokens stop.  Both bytes were counted by the reading of the tokens, and the cut is
made later, in the text.  So it has to be shown that a character begins at each of them.

The line is divided among its tokens, so it is also divided in front of each of them and behind the
last (`exists_cut_of_tokens`): into a text with the tokens in front, a text with the others, and a
comment.  The cut is the second of these without the blanks in front of its first token, and a
trimmed cut does not depend on these blanks (`Cut.remainder_eq`).
-/
import StageScript.Proofs.Token.Blanks

namespace StageScript

open Token (Kind Line Spelled lexFrom)

/-! ## 1. Trimmed parts -/

namespace Text

variable {cs blanks : List Char}

theorem trim_blanks_append (h : ∀ c ∈ blanks, isBlank c = true) (cs : List Char) :
    trim (blanks ++ cs) = trim cs :=
  congrArg trimRight (List.dropWhile_append_of_pos h)

/-- Trimming takes nothing out of the middle. -/
theorem exists_eq_trim (cs : List Char) :
    ∃ before behind, cs = before ++ (trim cs ++ behind) := by
  rcases eq_trim cs with h | ⟨-, h⟩
  · exact ⟨cs, [], by rw [trim_eq_nil h, List.append_nil, List.append_nil]⟩
  · exact ⟨_, _, h⟩

end Text

/-! ## 2. In front of a token -/

namespace Command

/-- The text is divided in front of the tokens `us`: into a text that has the tokens `ts` and ends
with the last of them, a text with the tokens `us`, and nothing more or a comment. -/
structure Cut (src : List Char) (l : Line) (ts us : List Token)
    (before body comment : List Char) : Prop where
  text : src = before ++ (body ++ comment)
  read : lexFrom 0 before = .ok ⟨ts, Text.byteLength before⟩
  last : ∀ t, ts.getLast? = some t → ∃ pre span, before = pre ++ span ∧ Spelled span t.kind
  ending : comment = [] ∨ ['/', '/'] <+: comment
  stop : l.stop = Text.byteLength (before ++ body)
  start : ∃ gap rest, body = gap ++ rest ∧ (∀ c ∈ gap, Text.isAsciiBlank c = true)
    ∧ ∀ p : Place, p.stop = l.stop → p.offset us = Text.byteLength (before ++ gap)

variable {src before body comment : List Char} {l : Line} {ts us : List Token}

/-- Tokens in front of others stand on pieces in front of others. -/
theorem exists_of_placed_eq_append {offset : Nat} {pieces : List Token.Piece}
    (h : Token.placed offset pieces = ts ++ us) :
    ∃ ps qs, pieces = ps ++ qs ∧ ts = Token.placed offset ps
      ∧ us = Token.placed (offset + Text.byteLength (ps.flatMap Token.Piece.chars)) qs := by
  induction ts generalizing offset pieces with
  | nil => exact ⟨[], pieces, rfl, rfl, h.symm⟩
  | cons t ts ih =>
    cases pieces with
    | nil => simp [Token.placed] at h
    | cons p pieces =>
      rw [Token.placed, List.cons_append] at h
      obtain ⟨rfl, hmore⟩ := List.cons.inj h
      obtain ⟨ps, qs, rfl, rfl, rfl⟩ := ih hmore
      refine ⟨p :: ps, qs, rfl, rfl, ?_⟩
      rw [List.flatMap_cons, Text.byteLength_append, Nat.add_assoc]

/-- The first of the tokens of a text, or its end, behind some blanks. -/
theorem exists_start (pieces : List Token.Piece) {blanks : List Char} (offset stop : Nat)
    (hgap : ∀ p ∈ pieces, ∀ c ∈ p.gap, Text.isAsciiBlank c = true)
    (hblanks : ∀ c ∈ blanks, Text.isAsciiBlank c = true)
    (hstop : stop = offset + Text.byteLength (pieces.flatMap Token.Piece.chars ++ blanks)) :
    ∃ gap rest, pieces.flatMap Token.Piece.chars ++ blanks = gap ++ rest
      ∧ (∀ c ∈ gap, Text.isAsciiBlank c = true)
      ∧ ∀ p : Place, p.stop = stop →
          p.offset (Token.placed offset pieces) = offset + Text.byteLength gap := by
  cases pieces with
  | nil => exact ⟨blanks, [], (List.append_nil _).symm, hblanks, fun p hp => hp.trans hstop⟩
  | cons q qs =>
    refine ⟨q.gap, Token.core q qs ++ blanks, ?_, hgap q List.mem_cons_self, fun p _ => rfl⟩
    rw [Token.chars_eq_core, List.append_assoc]

/-- **A line is divided in front of each of its tokens.** -/
theorem exists_cut_of_tokens (h : lexFrom 0 src = .ok l) (htokens : l.tokens = ts ++ us) :
    ∃ before body comment, Cut src l ts us before body comment := by
  obtain ⟨pieces, blanks, rest, hdivides, rfl⟩ := Token.exists_divides h
  obtain ⟨ps, qs, rfl, rfl, rfl⟩ := exists_of_placed_eq_append htokens
  have hstands (bs : List Token.Piece) (p : Token.Piece) (as : List Token.Piece)
      (heq : ps = bs ++ p :: as) : p.Stands (as.flatMap Token.Piece.chars ++ ([] ++ [])) := by
    have hwhole := hdivides.stands bs p (as ++ qs) (by rw [heq]; simp)
    exact hwhole.mono ⟨qs.flatMap Token.Piece.chars ++ (blanks ++ rest), by simp⟩
  have hfront : Token.Divides (ps.flatMap Token.Piece.chars) ps [] [] :=
    ⟨by simp, List.forall_mem_nil _, .inl rfl, hstands⟩
  have hread := hfront.lexFrom 0
  rw [List.append_nil, Nat.zero_add] at hread
  obtain ⟨gap, kept, hbody, hgap, hstart⟩ := exists_start qs
    (0 + Text.byteLength (ps.flatMap Token.Piece.chars))
    (0 + Text.byteLength ((ps ++ qs).flatMap Token.Piece.chars ++ blanks))
    (fun p hp => by
      obtain ⟨as, bs, heq⟩ := List.append_of_mem hp
      exact (hdivides.stands (ps ++ as) p bs (by rw [heq, List.append_assoc])).gap)
    hdivides.blank (by simp only [List.flatMap_append, Text.byteLength_append]; omega)
  refine ⟨ps.flatMap Token.Piece.chars, qs.flatMap Token.Piece.chars ++ blanks, rest, ?_, hread, ?_,
    hdivides.ending, ?_, gap, kept, hbody, hgap, ?_⟩
  · rw [hdivides.text, List.flatMap_append]
    simp
  · intro t ht
    rcases List.eq_nil_or_concat ps with rfl | ⟨init, p, rfl⟩
    · simp [Token.placed] at ht
    · have hp := hstands init p [] (by simp)
      refine ⟨init.flatMap Token.Piece.chars ++ p.gap, p.span, by simp [Token.Piece.chars], ?_⟩
      have hlast := Token.getElem?_placed 0 init p []
      rw [List.getLast?_eq_getElem?, Token.length_placed] at ht
      simp only [List.concat_eq_append, List.length_append, List.length_singleton,
        Nat.add_sub_cancel] at ht
      rw [hlast] at ht
      rw [← Option.some.inj ht]
      exact hp.spelled
  · dsimp only
    rw [Nat.zero_add, List.flatMap_append, List.append_assoc]
  · intro p hp
    rw [hstart p hp, Text.byteLength_append, Nat.zero_add]

namespace Cut

variable {p : Place}

/-- **What is cut out**, between two characters of the text. -/
theorem exists_slice (h : Cut src l ts us before body comment) (hp : p.stop = l.stop) :
    ∃ pre cut, src = pre ++ (cut ++ comment) ∧ p.offset us = Text.byteLength pre
      ∧ p.stop = Text.byteLength (pre ++ cut)
      ∧ Text.slice? src (p.offset us) p.stop = some cut ∧ Text.trim cut = Text.trim body := by
  obtain ⟨gap, rest, rfl, hgap, hstart⟩ := h.start
  have htext : src = (before ++ gap) ++ (rest ++ comment) := by
    rw [h.text]
    simp only [List.append_assoc]
  have hstop : p.stop = Text.byteLength ((before ++ gap) ++ rest) := by
    rw [hp, h.stop, List.append_assoc]
  refine ⟨before ++ gap, rest, htext, hstart p hp, hstop, ?_, ?_⟩
  · rw [hstart p hp, hstop, Text.byteLength_append (before ++ gap), htext, Text.slice?_between]
  · exact (Text.trim_blanks_append (fun c hc => Text.isBlank_of_isAsciiBlank (hgap c hc)) _).symm

/-- The rest of a line is the text of its tokens, trimmed. -/
theorem remainder_eq (h : Cut src l ts us before body comment) (hp : p.stop = l.stop) :
    remainder src p us = Text.trim body := by
  obtain ⟨pre, cut, -, -, -, hslice, htrim⟩ := h.exists_slice hp
  rw [remainder, hslice, Option.getD_some, htrim]

end Cut
end Command
end StageScript

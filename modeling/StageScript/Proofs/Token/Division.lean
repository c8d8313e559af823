/-
# The division of a text into tokens

`Divides cs pieces blanks rest` says, without mention of the reading, that the text `cs` consists
of tokens with blanks in front of them, then blanks, and then nothing more or a comment.  A text
that is read is divided in this way (`exists_divides`), and the division determines what is read
(`Divides.lexFrom`), because at every place the longest token there is the one that is read.

A division survives what happens to a text that becomes the end of a line: it stands behind other
tokens, blanks behind it are trimmed, and a form that takes the rest of the line cuts it out
between its first and its last token.  So the line has the tokens of the text behind those of its
beginning, and what is cut out has them as well (`Command.exists_line`).  Only a character outside
the language can be lost on the way, since some blanks are such characters.
-/
import StageScript.Proofs.Token.Coverage

namespace StageScript

open StageScript.Expr (kinds kinds_cons)

/-! ## 1. Ends of texts -/

namespace Text

variable {cs cs' : List Char}

/-- A text is something that does not end with a blank, and blanks behind it. -/
theorem exists_blanks_behind (cs : List Char) :
    ∃ kept blanks, cs = kept ++ blanks ∧ (∀ c ∈ blanks, isBlank c = true)
      ∧ kept.getLast?.all (fun c => !isBlank c) = true := by
  induction cs using List.reverseRecOn with
  | nil => exact ⟨[], [], rfl, List.forall_mem_nil _, rfl⟩
  | append_singleton cs c ih =>
    by_cases hc : isBlank c = true
    · obtain ⟨kept, blanks, rfl, hblanks, hkept⟩ := ih
      refine ⟨kept, blanks ++ [c], by rw [List.append_assoc], ?_, hkept⟩
      intro d hd
      rcases List.mem_append.mp hd with hd | hd
      · exact hblanks d hd
      · rwa [List.mem_singleton.mp hd]
    · exact ⟨cs ++ [c], [], by rw [List.append_nil], List.forall_mem_nil _, by simpa using hc⟩

/-- A text stays solid in front of what does not end with a blank. -/
theorem Solid.append_of_getLast? (h : Solid cs)
    (h' : cs'.getLast?.all (fun c => !isBlank c) = true) : Solid (cs ++ cs') := by
  refine ⟨?_, ?_⟩
  · rw [List.head?_append_of_ne_nil _ h.ne_nil]
    exact h.1
  · by_cases hnil : cs' = []
    · rw [hnil, List.append_nil]
      exact h.2
    · rw [List.getLast?_append_of_ne_nil _ hnil]
      rw [List.getLast?_eq_some_getLast hnil] at h' ⊢
      exact h'

end Text

namespace Token

variable {cs rest : List Char} {k : Kind} {offset : Nat}

theorem isBlank_of_isWordChar {c : Char} (h : isWordChar c = true) : Text.isBlank c = false :=
  (ne_of_isWordChar h).1

theorem IsDecimal.isBlank (h : IsDecimal cs) : ∀ c ∈ cs, Text.isBlank c = false := by
  intro c hc
  rcases h.isDigit_or_point c hc with hc | rfl
  · exact isBlank_of_isWordChar (isWordChar_of_isDigit hc)
  · rfl

/-- The text of a token begins and ends with something else than a blank, unless it is a character
outside the language. -/
theorem Spelled.solid (h : Spelled cs k) (hstray : ∀ s, k ≠ .stray s) : Text.Solid cs := by
  cases h with
  | text => exact Text.solid_between rfl rfl _
  | hex h =>
    refine Text.solid_of_forall (by simp) (List.forall_mem_cons.mpr ⟨rfl, ?_⟩)
    intro c hc
    exact isBlank_of_isWordChar (isWordChar_of_isAlphanum (h c hc))
  | word hstart h =>
    refine Text.solid_of_forall (by simp) (List.forall_mem_cons.mpr ⟨?_, ?_⟩)
    · exact isBlank_of_isWordChar (isWordChar_of_isWordStart hstart)
    · intro c hc
      exact isBlank_of_isWordChar (h c hc)
  | number h => exact Text.solid_of_forall (Spelled.number h).ne_nil h.isBlank
  | pointed h =>
    exact Text.solid_of_forall (by simp) (List.forall_mem_cons.mpr ⟨rfl, h.isBlank⟩)
  | @mark c m h =>
    refine Text.solid_of_forall (by simp) (List.forall_mem_singleton.mpr ?_)
    unfold Mark.ofChar? at h
    split at h
    case h_10 => simp at h
    all_goals rfl
  | stray => exact absurd rfl (hstray _)

/-! ## 2. Divisions -/

/-- The text consists of the pieces, blanks, and then nothing more or a comment. -/
structure Divides (cs : List Char) (pieces : List Piece) (blanks rest : List Char) : Prop where
  text : cs = pieces.flatMap Piece.chars ++ (blanks ++ rest)
  blank : ∀ c ∈ blanks, Text.isAsciiBlank c = true
  ending : rest = [] ∨ ['/', '/'] <+: rest
  stands : ∀ before p after, pieces = before ++ p :: after →
    p.Stands (after.flatMap Piece.chars ++ (blanks ++ rest))

theorem exists_divides {l : Line} (h : lexFrom offset cs = .ok l) :
    ∃ pieces blanks rest, Divides cs pieces blanks rest
      ∧ l = ⟨placed offset pieces,
          offset + Text.byteLength (pieces.flatMap Piece.chars ++ blanks)⟩ := by
  obtain ⟨pieces, blanks, rest, htext, hblanks, hrest, hl, hstands⟩ := exists_pieces h
  exact ⟨pieces, blanks, rest, ⟨htext, hblanks, hrest, hstands⟩, hl⟩

theorem kinds_placed (offset : Nat) (ps : List Piece) :
    kinds (placed offset ps) = ps.map Piece.kind := by
  induction ps generalizing offset with
  | nil => rfl
  | cons p ps ih => rw [placed, kinds_cons, ih, List.map_cons]

/-- Pieces are read where they stand, whatever is behind them. -/
theorem lexFrom_pieces {pieces : List Piece} {tail : List Char}
    (h : ∀ before p after, pieces = before ++ p :: after →
      p.Stands (after.flatMap Piece.chars ++ tail)) (offset : Nat) :
    lexFrom offset (pieces.flatMap Piece.chars ++ tail)
      = (lexFrom (offset + Text.byteLength (pieces.flatMap Piece.chars)) tail).map
          (Line.behind (placed offset pieces)) := by
  induction pieces generalizing offset with
  | nil =>
    rw [List.flatMap_nil, List.nil_append, Text.byteLength_nil, Nat.add_zero, placed]
    cases lexFrom offset tail <;> rfl
  | cons p ps ih =>
    have hp := h [] p ps rfl
    have hscans := hp.spelled.scans hp.comment hp.longest
    have hmore := ih fun before q after heq => h (p :: before) q after (congrArg (p :: ·) heq)
    rw [List.flatMap_cons, Piece.chars, List.append_assoc, List.append_assoc, lexFrom_blanks hp.gap,
      hscans, hmore, map_behind_map, placed, Piece.chars]
    simp only [Text.byteLength_append, Nat.add_assoc, List.singleton_append]

/-- Blanks, and then nothing more or a comment, hold no token. -/
theorem lexFrom_end {blanks : List Char} (hblanks : ∀ c ∈ blanks, Text.isAsciiBlank c = true)
    (hrest : rest = [] ∨ ['/', '/'] <+: rest) (offset : Nat) :
    lexFrom offset (blanks ++ rest) = .ok ⟨[], offset + Text.byteLength blanks⟩ := by
  rw [lexFrom_blanks hblanks]
  rcases hrest with rfl | ⟨comment, rfl⟩
  · rw [lexFrom]
  · have hstarts : startsComment ('/' :: (['/'] ++ comment)) = true := rfl
    rw [List.cons_append, lexFrom, if_neg (by decide), if_pos hstarts]

/-- **A division determines what is read.** -/
theorem Divides.lexFrom {pieces : List Piece} {blanks : List Char}
    (h : Divides cs pieces blanks rest) (offset : Nat) :
    lexFrom offset cs = .ok ⟨placed offset pieces,
      offset + Text.byteLength (pieces.flatMap Piece.chars ++ blanks)⟩ := by
  rw [h.text, lexFrom_pieces h.stands, lexFrom_end h.blank h.ending, Text.byteLength_append,
    ← Nat.add_assoc]
  simp [Except.map, Line.behind]

/-! ## 3. Other ends, other beginnings -/

/-- A token stays the longest one where less is behind it. -/
theorem Piece.Stands.mono {p : Piece} {behind behind' : List Char} (h : p.Stands behind)
    (hle : behind' <+: behind) : p.Stands behind' := by
  have hmore : p.span ++ behind' <+: p.span ++ behind := (List.prefix_append_right_inj _).mpr hle
  exact { h with
    comment := fun hcomment => h.comment (hcomment.trans hmore)
    longest := fun pre k hpre => h.longest pre k (hpre.trans hmore) }

/-- The same tokens with less behind them. -/
theorem Divides.cut {pieces : List Piece} {blanks blanks' rest' : List Char}
    (h : Divides cs pieces blanks rest) (hle : blanks' ++ rest' <+: blanks ++ rest)
    (hblanks : ∀ c ∈ blanks', Text.isAsciiBlank c = true)
    (hrest : rest' = [] ∨ ['/', '/'] <+: rest') :
    Divides (pieces.flatMap Piece.chars ++ (blanks' ++ rest')) pieces blanks' rest' where
  text := rfl
  blank := hblanks
  ending := hrest
  stands before p after heq :=
    (h.stands before p after heq).mono ((List.prefix_append_right_inj _).mpr hle)

/-- The same tokens with nothing behind them. -/
theorem Divides.bare {pieces : List Piece} {blanks : List Char}
    (h : Divides cs pieces blanks rest) : Divides (pieces.flatMap Piece.chars) pieces [] [] := by
  have hcut : Divides (pieces.flatMap Piece.chars ++ ([] ++ [])) pieces [] [] :=
    h.cut List.nil_prefix (List.forall_mem_nil _) (.inl rfl)
  rwa [List.append_nil, List.append_nil] at hcut

/-- The text from the first token to the last. -/
def core (p : Piece) (ps : List Piece) : List Char := p.span ++ ps.flatMap Piece.chars

theorem chars_eq_core (p : Piece) (ps : List Piece) :
    (p :: ps).flatMap Piece.chars = p.gap ++ core p ps := by
  rw [List.flatMap_cons, Piece.chars, core, List.append_assoc]

/-- The tokens of a text by themselves: nothing in front of the first, nothing behind the last. -/
theorem Divides.alone {p : Piece} {ps : List Piece} {blanks : List Char}
    (h : Divides cs (p :: ps) blanks rest) :
    Divides (core p ps) (⟨[], p.span, p.kind⟩ :: ps) [] [] where
  text := by rw [chars_eq_core, List.nil_append, List.append_nil, List.append_nil]; rfl
  blank := List.forall_mem_nil _
  ending := .inl rfl
  stands := by
    intro before q after heq
    cases before with
    | nil =>
      obtain ⟨rfl, rfl⟩ := List.cons.inj heq
      exact { h.bare.stands [] p ps rfl with gap := List.forall_mem_nil _ }
    | cons r before =>
      obtain ⟨-, rfl⟩ := List.cons.inj heq
      exact h.bare.stands (p :: before) q after rfl

/-- The core of a text has the tokens of the text. -/
theorem Divides.exists_lex_core {p : Piece} {ps : List Piece} {blanks : List Char}
    (h : Divides cs (p :: ps) blanks rest) (line base : Nat) :
    ∃ l, lex line base (core p ps) = .ok l ∧ kinds l.tokens = (p :: ps).map Piece.kind := by
  refine ⟨_, by rw [lex, h.alone.lexFrom]; rfl, ?_⟩
  rw [kinds_placed]
  rfl

theorem solid_core {p : Piece} {ps : List Piece} (h : ∀ q ∈ p :: ps, Text.Solid q.span) :
    Text.Solid (core p ps) := by
  rw [List.forall_mem_cons] at h
  rcases List.eq_nil_or_concat ps with rfl | ⟨qs, q, rfl⟩
  · rw [core, List.flatMap_nil, List.append_nil]
    exact h.1
  · have hbetween := h.1.append (h.2 q (by simp)) (qs.flatMap Piece.chars ++ q.gap)
    simpa [core, Piece.chars] using hbetween

/-- Trimming the end of a text leaves its tokens. -/
theorem Divides.exists_trimmed {p : Piece} {ps : List Piece} {blanks : List Char}
    (h : Divides cs (p :: ps) blanks rest) (hcore : Text.Solid (core p ps)) :
    ∃ blanks' rest' trimmed,
      cs = p.gap ++ (core p ps ++ (blanks' ++ rest')) ++ trimmed
      ∧ Divides (p.gap ++ (core p ps ++ (blanks' ++ rest'))) (p :: ps) blanks' rest'
      ∧ Text.Solid (core p ps ++ (blanks' ++ rest'))
      ∧ ∀ c ∈ trimmed, Text.isBlank c = true := by
  have hchars := chars_eq_core p ps
  rcases h.ending with rfl | ⟨comment, rfl⟩
  · have hbare := h.bare
    rw [hchars, ← List.append_nil (core p ps)] at hbare
    refine ⟨[], [], blanks, ?_, hbare, hcore.append_of_getLast? rfl, ?_⟩
    · rw [h.text, hchars]
      simp
    · intro c hc
      exact Text.isBlank_of_isAsciiBlank (h.blank c hc)
  · -- the slashes of the comment are no blanks, so they stay
    obtain ⟨kept, trimmed, rfl, htrimmed, hkept⟩ := Text.exists_blanks_behind comment
    have hstarts : ['/', '/'] <+: ['/', '/'] ++ kept := List.prefix_append _ _
    have hcut := h.cut ⟨trimmed, by simp⟩ h.blank (.inr hstarts)
    rw [hchars, List.append_assoc] at hcut
    have hslashes : Text.Solid (['/', '/'] ++ kept) :=
      Text.Solid.append_of_getLast? ⟨rfl, rfl⟩ hkept
    refine ⟨blanks, ['/', '/'] ++ kept, trimmed, ?_, hcut, hcore.append hslashes blanks, htrimmed⟩
    rw [h.text, hchars]
    simp

end Token

/-! ## 4. The end of a line -/

namespace Command

open Token (Divides)

/-- Behind any beginning, the rest of a line that starts with a token of the text is the core of
the text. -/
theorem remainder_of_divides {pre cs blanks rest : List Char} {p : Token.Piece}
    {ps : List Token.Piece} (h : Divides cs (p :: ps) blanks rest)
    (hcore : Text.Solid (Token.core p ps)) (line base : Nat) :
    remainder (pre ++ cs) ⟨line, base, Text.byteLength pre
        + Text.byteLength ((p :: ps).flatMap Token.Piece.chars ++ blanks)⟩
      (Token.placed (Text.byteLength pre) (p :: ps)) = Token.core p ps := by
  have htext : pre ++ cs = (pre ++ p.gap) ++ ((Token.core p ps ++ blanks) ++ rest) := by
    rw [h.text, Token.chars_eq_core]
    simp only [List.append_assoc]
  have hstop : Text.byteLength pre
      + Text.byteLength ((p :: ps).flatMap Token.Piece.chars ++ blanks)
      = Text.byteLength (pre ++ p.gap) + Text.byteLength (Token.core p ps ++ blanks) := by
    rw [Token.chars_eq_core]
    simp only [Text.byteLength_append]
    omega
  have hoffset (stop : Nat) : Place.offset ⟨line, base, stop⟩
      (Token.placed (Text.byteLength pre) (p :: ps)) = Text.byteLength (pre ++ p.gap) := by
    rw [Text.byteLength_append]
    rfl
  rw [remainder, hoffset, hstop, htext, Text.slice?_between, Option.getD_some]
  exact Text.trim_append_of_solid hcore fun c hc => Text.isBlank_of_isAsciiBlank (h.blank c hc)

/-- **A text behind the beginning of a line.**  When the line is trimmed, its tokens are those of
its beginning and then those of the text.  What the forms that take the rest of the line cut out
is a text with the same tokens again. -/
theorem exists_line {pre cs : List Char} {ks : List Token.Kind} {l : Token.Line}
    (hpre : Token.Spells pre ks) (hsolid : Text.Solid pre) (hread : Token.lexFrom 0 cs = .ok l)
    (hne : l.tokens ≠ []) (hstray : ∀ k ∈ kinds l.tokens, ∀ s, k ≠ .stray s) (line base : Nat) :
    ∃ src ts us stop text, Text.trim (pre ++ ' ' :: cs) = src ∧ Text.Solid src
      ∧ kinds ts = ks ∧ kinds us = kinds l.tokens
      ∧ Token.lex line base src = .ok ⟨ts ++ us, stop⟩
      ∧ remainder src ⟨line, base, stop⟩ us = text ∧ text ≠ []
      ∧ ∀ line' base', ∃ l', Token.lex line' base' text = .ok l'
          ∧ kinds l'.tokens = kinds l.tokens := by
  obtain ⟨pieces, blanks, rest, hdivides, rfl⟩ := Token.exists_divides hread
  cases pieces with
  | nil => exact absurd rfl hne
  | cons p ps =>
    rw [Token.kinds_placed] at hstray
    have hcore : Text.Solid (Token.core p ps) := by
      refine Token.solid_core fun q hq => ?_
      obtain ⟨before, after, heq⟩ := List.append_of_mem hq
      exact (hdivides.stands before q after heq).spelled.solid (hstray _ (List.mem_map_of_mem hq))
    obtain ⟨blanks', rest', trimmed, hcs, hkept, hend, htrimmed⟩ := hdivides.exists_trimmed hcore
    obtain ⟨ts, hts, hlex⟩ :=
      hpre 0 (' ' :: (p.gap ++ (Token.core p ps ++ (blanks' ++ rest')))) rfl
    have hpos : Text.byteLength pre + 1 = Text.byteLength (pre ++ [' ']) := by
      rw [Text.byteLength_append]
      rfl
    rw [Token.lexFrom_blank rfl, Nat.zero_add, hpos, hkept.lexFrom] at hlex
    have hsrc : Text.Solid
        (pre ++ [' '] ++ (p.gap ++ (Token.core p ps ++ (blanks' ++ rest')))) := by
      have hbetween := hsolid.append hend ([' '] ++ p.gap)
      simpa only [List.append_assoc] using hbetween
    refine ⟨pre ++ [' '] ++ (p.gap ++ (Token.core p ps ++ (blanks' ++ rest'))), ts,
      Token.placed (Text.byteLength (pre ++ [' '])) (p :: ps), _, _, ?_, hsrc, hts, ?_, ?_,
      remainder_of_divides hkept hcore line base, hcore.ne_nil, ?_⟩
    · rw [hcs, ← List.singleton_append, ← List.append_assoc, ← List.append_assoc]
      exact Text.trim_append_of_solid hsrc htrimmed
    · rw [Token.kinds_placed, Token.kinds_placed]
    · rw [List.append_assoc, List.singleton_append, Token.lex, hlex]
      rfl
    · rw [Token.kinds_placed]
      exact fun line' base' => hdivides.exists_lex_core line' base'

end Command
end StageScript

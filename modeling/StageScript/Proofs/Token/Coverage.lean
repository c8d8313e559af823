/-
# A line is covered by its tokens

`Spelled cs k` says, without mention of the reading, that the text `cs` by itself is a token of
the kind `k`.  A text is spelled as at most one kind (`Spelled.functional`), and what is read at a
place is the longest spelled text that stands there (`exists_takes_of_scan`).  Both rest on the
first character, which leaves one way of spelling, or two for a point.

From one token the line follows by induction on its length: blanks are passed over, and behind
each token the reading goes on with what the token left (`exists_pieces`).
-/
import StageScript.Proofs.Token.Spelling

namespace StageScript
namespace Token

/-! ## 1. What a token looks like -/

/-- The inside of a literal, and the text that it stands for. -/
inductive Unescapes : List Char → List Char → Prop
  | nil : Unescapes [] []
  | plain {c : Char} {inner text : List Char} (hquote : c ≠ '"') (hslash : c ≠ '\\')
      (h : Unescapes inner text) : Unescapes (c :: inner) (c :: text)
  | escape {e d : Char} {inner text : List Char} (hescape : unescape? e = some d)
      (h : Unescapes inner text) : Unescapes ('\\' :: e :: inner) (d :: text)

/-- A run of digits that is not empty. -/
def IsDigits (cs : List Char) : Prop := cs ≠ [] ∧ ∀ c ∈ cs, c.isDigit = true

/-- Digits, and behind them perhaps a point with more digits. -/
def IsDecimal (cs : List Char) : Prop :=
  IsDigits cs ∨ ∃ whole fraction, IsDigits whole ∧ IsDigits fraction ∧ cs = whole ++ '.' :: fraction

/-- A character that no token begins with and that is no blank either. -/
structure IsStray (c : Char) : Prop where
  blank : Text.isAsciiBlank c = false
  quote : c ≠ '"'
  hash : c ≠ '#'
  letter : isWordStart c = false
  digit : c.isDigit = false
  mark : Mark.ofChar? c = none

/-- The text, by itself, is a token of the kind. -/
inductive Spelled : List Char → Kind → Prop
  | text {inner body : List Char} (h : Unescapes inner body) :
      Spelled ('"' :: (inner ++ ['"'])) (.text (String.ofList body))
  | hex {digits : List Char} (h : ∀ c ∈ digits, c.isAlphanum = true) :
      Spelled ('#' :: digits) (.hex (String.ofList ('#' :: digits)))
  | word {c : Char} {cs : List Char} (hstart : isWordStart c = true)
      (h : ∀ d ∈ cs, isWordChar d = true) : Spelled (c :: cs) (.word (String.ofList (c :: cs)))
  | number {cs : List Char} (h : IsDecimal cs) : Spelled cs (.number (numberValue cs))
  /-- A number may begin with its point. -/
  | pointed {cs : List Char} (h : IsDecimal cs) :
      Spelled ('.' :: cs) (.number (numberValue ('.' :: cs)))
  | mark {c : Char} {m : Mark} (h : Mark.ofChar? c = some m) : Spelled [c] (.mark m)
  | stray {c : Char} (h : IsStray c) : Spelled [c] (.stray (String.singleton c))

/-! ## 2. The first character decides -/

variable {c d : Char} {cs rest : List Char} {k k' : Kind} {m : Mark}

theorem IsDecimal.exists_cons (h : IsDecimal cs) : ∃ d ds, cs = d :: ds ∧ d.isDigit = true := by
  rcases h with ⟨hne, hdigits⟩ | ⟨whole, fraction, ⟨hne, hdigits⟩, -, rfl⟩
  · obtain ⟨d, ds, rfl⟩ := List.exists_cons_of_ne_nil hne
    exact ⟨d, ds, rfl, hdigits d (by simp)⟩
  · obtain ⟨d, ds, rfl⟩ := List.exists_cons_of_ne_nil hne
    exact ⟨d, ds ++ '.' :: fraction, rfl, hdigits d (by simp)⟩

theorem IsDecimal.isDigit (h : IsDecimal (c :: cs)) : c.isDigit = true := by
  obtain ⟨d, ds, heq, hd⟩ := h.exists_cons
  obtain ⟨rfl, -⟩ := List.cons.inj heq
  exact hd

/-- A character of a name is no mark. -/
theorem ofChar?_ne_of_isWordChar (h : isWordChar c = true) : Mark.ofChar? c ≠ some m := by
  intro hm
  unfold Mark.ofChar? at hm
  split at hm
  case h_10 => simp at hm
  all_goals exact absurd h (by decide)

theorem Spelled.of_quote (h : Spelled ('"' :: cs) k) :
    ∃ inner body, cs = inner ++ ['"'] ∧ Unescapes inner body ∧ k = .text (String.ofList body) := by
  cases h with
  | text h => exact ⟨_, _, rfl, h, rfl⟩
  | word hstart => exact absurd hstart (by decide)
  | number h => exact absurd h.isDigit (by decide)
  | mark h => exact absurd h (by simp [Mark.ofChar?])
  | stray h => exact absurd rfl h.quote

theorem Spelled.of_hash (h : Spelled ('#' :: cs) k) :
    (∀ c ∈ cs, c.isAlphanum = true) ∧ k = .hex (String.ofList ('#' :: cs)) := by
  cases h with
  | hex h => exact ⟨h, rfl⟩
  | word hstart => exact absurd hstart (by decide)
  | number h => exact absurd h.isDigit (by decide)
  | mark h => exact absurd h (by simp [Mark.ofChar?])
  | stray h => exact absurd rfl h.hash

theorem Spelled.of_isWordStart (hc : isWordStart c = true) (h : Spelled (c :: cs) k) :
    (∀ d ∈ cs, isWordChar d = true) ∧ k = .word (String.ofList (c :: cs)) := by
  cases h with
  | word _ h => exact ⟨h, rfl⟩
  | text | hex | pointed => exact absurd hc (by decide)
  | number h => exact absurd hc (not_isWordStart_of_isDigit h.isDigit)
  | mark h => exact absurd h (ofChar?_ne_of_isWordChar (isWordChar_of_isWordStart hc))
  | stray h => exact absurd hc (by simp [h.letter])

theorem Spelled.of_isDigit (hc : c.isDigit = true) (h : Spelled (c :: cs) k) :
    IsDecimal (c :: cs) ∧ k = .number (numberValue (c :: cs)) := by
  cases h with
  | number h => exact ⟨h, rfl⟩
  | text | hex | pointed => exact absurd hc (by decide)
  | word hstart => exact absurd hstart (not_isWordStart_of_isDigit hc)
  | mark h => exact absurd h (ofChar?_ne_of_isWordChar (isWordChar_of_isDigit hc))
  | stray h => exact absurd hc (by simp [h.digit])

/-- A mark stands alone, but a point may begin a number. -/
theorem Spelled.of_mark (hm : Mark.ofChar? c = some m) (h : Spelled (c :: cs) k) :
    (cs = [] ∧ k = .mark m)
      ∨ c = '.' ∧ IsDecimal cs ∧ k = .number (numberValue ('.' :: cs)) := by
  cases h with
  | pointed h => exact .inr ⟨rfl, h, rfl⟩
  | mark h => exact .inl ⟨rfl, congrArg Kind.mark (Option.some.inj (h.symm.trans hm))⟩
  | text | hex => exact absurd hm (by simp [Mark.ofChar?])
  | word hstart =>
    exact absurd hm (ofChar?_ne_of_isWordChar (isWordChar_of_isWordStart hstart))
  | number h => exact absurd hm (ofChar?_ne_of_isWordChar (isWordChar_of_isDigit h.isDigit))
  | stray h => exact absurd hm (by simp [h.mark])

theorem Spelled.of_isStray (hc : IsStray c) (h : Spelled (c :: cs) k) :
    cs = [] ∧ k = .stray (String.singleton c) := by
  cases h with
  | stray => exact ⟨rfl, rfl⟩
  | text => exact absurd rfl hc.quote
  | hex => exact absurd rfl hc.hash
  | word hstart => exact absurd hstart (by simp [hc.letter])
  | number h => exact absurd h.isDigit (by simp [hc.digit])
  | pointed | mark => exact absurd hc.mark (by simp_all [Mark.ofChar?])

/-! ## 3. The inside of a literal -/

theorem utf8Size_of_unescape? {e d : Char} (h : unescape? e = some d) : e.utf8Size = 1 := by
  unfold unescape? at h
  split at h
  case h_5 => simp at h
  all_goals rfl

/-- What is read up to a closing quote is the inside of a literal. -/
theorem unescapes_of_textBody {size n : Nat} {body : List Char}
    (h : textBody size cs = .ok (body, n, rest)) :
    ∃ inner, cs = inner ++ '"' :: rest ∧ Unescapes inner body
      ∧ n = size + Text.byteLength inner + 1 := by
  fun_induction textBody size cs generalizing body n rest with
  | case1 | case3 | case4 => simp at h
  | case2 size cs =>
    obtain ⟨rfl, rfl, rfl⟩ : [] = body ∧ size + 1 = n ∧ cs = rest := by simpa using h
    exact ⟨[], rfl, .nil, rfl⟩
  | case5 size e cs d hescape _ ih =>
    cases hbody : textBody (size + 2) cs with
    | error f => simp [hbody, Except.map] at h
    | ok r =>
      obtain ⟨body', n', rest'⟩ := r
      obtain ⟨rfl, rfl, rfl⟩ : d :: body' = body ∧ n' = n ∧ rest' = rest := by
        simpa [hbody, Except.map] using h
      obtain ⟨inner, rfl, hinner, rfl⟩ := ih hbody
      have he := utf8Size_of_unescape? hescape
      have hslash : ('\\' : Char).utf8Size = 1 := rfl
      exact ⟨'\\' :: e :: inner, rfl, .escape hescape hinner, by
        simp only [Text.byteLength_cons, he, hslash]
        omega⟩
  | case6 size c cs hquote hslash ih =>
    cases hbody : textBody (size + c.utf8Size) cs with
    | error f => simp [hbody, Except.map] at h
    | ok r =>
      obtain ⟨body', n', rest'⟩ := r
      obtain ⟨rfl, rfl, rfl⟩ : c :: body' = body ∧ n' = n ∧ rest' = rest := by
        simpa [hbody, Except.map] using h
      obtain ⟨inner, rfl, hinner, rfl⟩ := ih hbody
      exact ⟨c :: inner, rfl, .plain hquote hslash hinner, by
        simp only [Text.byteLength_cons]
        omega⟩

/-- The inside of a literal is read up to the quote behind it. -/
theorem Unescapes.textBody {inner body : List Char} (h : Unescapes inner body) (size : Nat)
    (rest : List Char) :
    textBody size (inner ++ '"' :: rest)
      = .ok (body, size + Text.byteLength inner + 1, rest) := by
  induction h generalizing size with
  | nil =>
    rw [List.nil_append, Token.textBody.eq_def]
    rfl
  | @plain c inner text hquote hslash h ih =>
    rw [List.cons_append, Token.textBody.eq_def]
    simp only [if_neg hquote, if_neg hslash, ih]
    simp only [Except.map, Text.byteLength_cons, Nat.add_assoc]
  | @escape e d inner text hescape h ih =>
    have hslash : ('\\' : Char).utf8Size = 1 := rfl
    rw [List.cons_append, List.cons_append, Token.textBody.eq_def]
    simp only [Char.reduceEq, if_false, if_true, hescape, ih]
    have hsize : size + 2 + Text.byteLength inner
        = size + Text.byteLength ('\\' :: e :: inner) := by
      rw [Text.byteLength_cons, Text.byteLength_cons, utf8Size_of_unescape? hescape, hslash]
      omega
    rw [hsize]
    rfl

/-- A literal ends at the first quote that can close it, and stands for one text. -/
theorem Unescapes.unique {inner inner' body body' rest' : List Char} (h : Unescapes inner body)
    (h' : Unescapes inner' body') (heq : inner ++ '"' :: rest = inner' ++ '"' :: rest') :
    inner' = inner ∧ body' = body := by
  have hread := h.textBody 0 rest
  rw [heq, h'.textBody] at hread
  obtain ⟨rfl, -, rfl⟩ := by simpa using hread
  exact ⟨(List.append_cancel_right heq).symm, rfl⟩

/-! ## 4. One kind, and the longest text -/

/-- **A text is a token of one kind at most.** -/
theorem Spelled.functional (h : Spelled cs k) (h' : Spelled cs k') : k' = k := by
  cases h with
  | text h =>
    obtain ⟨inner, body, hinner, h', rfl⟩ := h'.of_quote
    obtain rfl := List.append_cancel_right hinner
    rw [(h.unique h' (rfl : _ ++ '"' :: [] = _)).2]
  | hex h => exact h'.of_hash.2
  | word hstart => exact (h'.of_isWordStart hstart).2
  | number h =>
    obtain ⟨d, ds, rfl, hd⟩ := h.exists_cons
    exact (h'.of_isDigit hd).2
  | pointed h =>
    rcases h'.of_mark rfl with ⟨rfl, -⟩ | ⟨-, -, h'⟩
    · exact absurd h.exists_cons (by simp)
    · exact h'
  | mark hm =>
    rcases h'.of_mark hm with ⟨-, h'⟩ | ⟨-, h', -⟩
    · exact h'
    · exact absurd h'.exists_cons (by simp)
  | stray hc => exact (h'.of_isStray hc).2

/-- A run as long as it can be contains every other one. -/
theorem prefix_takeWhile {p : Char → Bool} {pre : List Char} (h : pre <+: cs)
    (hp : ∀ c ∈ pre, p c = true) : pre <+: cs.takeWhile p := by
  obtain ⟨rest, rfl⟩ := h
  rw [List.takeWhile_append_of_pos hp]
  exact List.prefix_append _ _

theorem numberSpan_append (cs : List Char) : (numberSpan cs).1 ++ (numberSpan cs).2 = cs := by
  have hsplit := List.takeWhile_append_dropWhile (p := Char.isDigit) (l := cs)
  unfold numberSpan
  split
  · rename_i d more heq
    rw [heq] at hsplit
    split_ifs
    · rw [List.append_assoc, List.cons_append, List.takeWhile_append_dropWhile, hsplit]
    · exact hsplit
  · exact hsplit

theorem isDecimal_numberSpan (hc : c.isDigit = true) (cs : List Char) :
    IsDecimal (numberSpan (c :: cs)).1 := by
  have hwhole : IsDigits ((c :: cs).takeWhile Char.isDigit) :=
    ⟨by simp [hc], fun _ => List.mem_takeWhile_imp⟩
  unfold numberSpan
  split
  · rename_i d more _
    split_ifs with hd
    · exact .inr ⟨_, _, hwhole, ⟨by simp [hd], fun _ => List.mem_takeWhile_imp⟩, rfl⟩
    · exact .inl hwhole
  · exact .inl hwhole

/-- No number is longer than the one that is read. -/
theorem prefix_numberSpan {pre : List Char} (hpre : pre <+: cs) (h : IsDecimal pre) :
    pre <+: (numberSpan cs).1 := by
  rcases h with ⟨-, hdigits⟩ | ⟨whole, fraction, ⟨-, hwhole⟩, ⟨hne, hfraction⟩, rfl⟩
  · have hrun := prefix_takeWhile hpre hdigits
    unfold numberSpan
    split
    · split_ifs
      · exact hrun.trans (List.prefix_append _ _)
      · exact hrun
    · exact hrun
  · -- the point is where the first digits end, so the reading meets it there as well
    obtain ⟨rest, rfl⟩ := hpre
    obtain ⟨d, ds, rfl⟩ := List.exists_cons_of_ne_nil hne
    have hd : d.isDigit = true := hfraction d (by simp)
    have hpoint : ('.' :: d :: (ds ++ rest)).head?.any Char.isDigit = false := rfl
    obtain ⟨htake, hdrop⟩ := Text.span_append hwhole hpoint
    have hrun := prefix_takeWhile (List.prefix_append (d :: ds) rest) hfraction
    unfold numberSpan
    rw [List.append_assoc, List.cons_append, List.cons_append, htake, hdrop]
    simp only [hd, if_true]
    exact (List.prefix_append_right_inj _).mpr ((List.prefix_cons_inj _).mpr hrun)

theorem IsDecimal.isDigit_or_point (h : IsDecimal cs) :
    ∀ c ∈ cs, c.isDigit = true ∨ c = '.' := by
  intro c hc
  rcases h with h | ⟨whole, fraction, hwhole, hfraction, rfl⟩
  · exact .inl (h.2 c hc)
  · rcases List.mem_append.mp hc with hc | hc
    · exact .inl (hwhole.2 c hc)
    · rcases List.mem_cons.mp hc with rfl | hc
      · exact .inr rfl
      · exact .inl (hfraction.2 c hc)

theorem IsDecimal.utf8Size (h : IsDecimal cs) : ∀ c ∈ cs, c.utf8Size = 1 := by
  intro c hc
  rcases h.isDigit_or_point c hc with hc | rfl
  · exact utf8Size_of_isWordChar (isWordChar_of_isDigit hc)
  · rfl

theorem Spelled.ne_nil (h : Spelled cs k) : cs ≠ [] := by
  cases h with
  | number h =>
    obtain ⟨d, ds, rfl, -⟩ := h.exists_cons
    simp
  | _ => simp

/-- A token in front of a text begins with the text's first character. -/
theorem Spelled.exists_cons {pre : List Char} (h : Spelled pre k) (hpre : pre <+: c :: cs) :
    ∃ ds, pre = c :: ds ∧ ds <+: cs := by
  rcases List.prefix_cons_iff.mp hpre with rfl | hpre
  · exact absurd rfl h.ne_nil
  · exact hpre

/-- The read token is the longest one that stands in front of the text. -/
structure Lexeme.Takes (l : Lexeme) (span cs : List Char) : Prop where
  text : cs = span ++ l.rest
  size : l.size = Text.byteLength span
  spelled : Spelled span l.kind
  longest : ∀ pre k, pre <+: cs → Spelled pre k → pre <+: span

/-- A token that goes on with the characters of one class. -/
theorem takes_run {p : Char → Bool} (hc : c.utf8Size = 1) (hp : ∀ d, p d = true → d.utf8Size = 1)
    (hspelled : Spelled (c :: cs.takeWhile p) k)
    (hrun : ∀ ds k', Spelled (c :: ds) k' → ∀ d ∈ ds, p d = true) :
    Lexeme.Takes ⟨k, (c :: cs.takeWhile p).length, cs.dropWhile p⟩ (c :: cs.takeWhile p)
      (c :: cs) where
  text := by rw [List.cons_append, List.takeWhile_append_dropWhile]
  size := (byteLength_eq_length (List.forall_mem_cons.mpr
    ⟨hc, fun d hd => hp d (List.mem_takeWhile_imp hd)⟩)).symm
  spelled := hspelled
  longest := by
    intro pre k' hpre hk
    obtain ⟨ds, rfl, hds⟩ := hk.exists_cons hpre
    exact (List.prefix_cons_inj c).mpr (prefix_takeWhile hds (hrun ds k' hk))

theorem takes_text {size : Nat} {body : List Char} (h : textBody 1 cs = .ok (body, size, rest)) :
    ∃ span, Lexeme.Takes ⟨.text (String.ofList body), size, rest⟩ span ('"' :: cs) := by
  obtain ⟨inner, rfl, hinner, rfl⟩ := unescapes_of_textBody h
  refine ⟨'"' :: (inner ++ ['"']), by simp, ?_, .text hinner, ?_⟩
  · simp only [Text.byteLength_cons, Text.byteLength_append, Text.byteLength_nil, Nat.add_assoc]
    rfl
  · -- two literals in front of one text end at the same quote
    intro pre k hpre hk
    obtain ⟨ds, rfl, more, hmore⟩ := hk.exists_cons hpre
    obtain ⟨inner', body', rfl, hinner', -⟩ := hk.of_quote
    rw [List.append_assoc, List.singleton_append] at hmore
    rw [(hinner.unique hinner' hmore.symm).1]

theorem takes_number (hc : c.isDigit = true) :
    Lexeme.Takes ⟨.number (numberValue (numberSpan (c :: cs)).1), (numberSpan (c :: cs)).1.length,
      (numberSpan (c :: cs)).2⟩ (numberSpan (c :: cs)).1 (c :: cs) where
  text := (numberSpan_append _).symm
  size := (byteLength_eq_length (isDecimal_numberSpan hc cs).utf8Size).symm
  spelled := .number (isDecimal_numberSpan hc cs)
  longest := by
    intro pre k hpre hk
    obtain ⟨ds, rfl, -⟩ := hk.exists_cons hpre
    exact prefix_numberSpan hpre (hk.of_isDigit hc).1

/-- A number that begins with its point. -/
theorem takes_pointed (hd : d.isDigit = true) :
    Lexeme.Takes ⟨.number (numberValue ('.' :: (numberSpan (d :: cs)).1)),
      (numberSpan (d :: cs)).1.length + 1, (numberSpan (d :: cs)).2⟩
      ('.' :: (numberSpan (d :: cs)).1) ('.' :: d :: cs) where
  text := by rw [List.cons_append, numberSpan_append]
  size := by
    rw [Text.byteLength_cons, byteLength_eq_length (isDecimal_numberSpan hd cs).utf8Size,
      Nat.add_comm]
    rfl
  spelled := .pointed (isDecimal_numberSpan hd cs)
  longest := by
    intro pre k hpre hk
    obtain ⟨ds, rfl, hds⟩ := hk.exists_cons hpre
    rcases hk.of_mark rfl with ⟨rfl, -⟩ | ⟨-, hdecimal, -⟩
    · exact (List.prefix_cons_inj '.').mpr List.nil_prefix
    · exact (List.prefix_cons_inj '.').mpr (prefix_numberSpan hds hdecimal)

/-- A token of one character. -/
theorem takes_single (hspelled : Spelled [c] k)
    (hlone : ∀ ds k', ds <+: cs → Spelled (c :: ds) k' → ds = []) :
    Lexeme.Takes ⟨k, c.utf8Size, cs⟩ [c] (c :: cs) where
  text := rfl
  size := rfl
  spelled := hspelled
  longest := by
    intro pre k' hpre hk
    obtain ⟨ds, rfl, hds⟩ := hk.exists_cons hpre
    rw [hlone ds k' hds hk]

theorem utf8Size_of_ofChar? (h : Mark.ofChar? c = some m) : c.utf8Size = 1 := by
  unfold Mark.ofChar? at h
  split at h
  case h_10 => simp at h
  all_goals rfl

/-- **A token is the longest text that is spelled as one.** -/
theorem exists_takes_of_scan {l : Lexeme} (hblank : Text.isAsciiBlank c = false)
    (h : scan c cs = .ok l) : ∃ span, l.Takes span (c :: cs) := by
  unfold scan at h
  by_cases hquote : c = '"'
  · subst hquote
    cases hbody : textBody 1 cs with
    | error f => simp [hbody, Except.map] at h
    | ok r =>
      rw [if_pos rfl, hbody] at h
      obtain rfl := Except.ok.inj h
      exact takes_text hbody
  rw [if_neg hquote] at h
  by_cases hhash : c = '#'
  · subst hhash
    rw [if_pos rfl] at h
    obtain rfl := Except.ok.inj h
    exact ⟨_, takes_run rfl
      (fun d hd => utf8Size_of_isWordChar (isWordChar_of_isAlphanum hd))
      (.hex fun _ => List.mem_takeWhile_imp) fun ds k' hk => hk.of_hash.1⟩
  rw [if_neg hhash] at h
  by_cases hstart : isWordStart c = true
  · rw [if_pos hstart] at h
    obtain rfl := Except.ok.inj h
    exact ⟨_, takes_run (utf8Size_of_isWordChar (isWordChar_of_isWordStart hstart))
      (fun d hd => utf8Size_of_isWordChar hd) (.word hstart fun _ => List.mem_takeWhile_imp)
      fun ds k' hk => (hk.of_isWordStart hstart).1⟩
  rw [if_neg hstart] at h
  by_cases hdigit : c.isDigit = true
  · rw [if_pos hdigit] at h
    obtain rfl := Except.ok.inj h
    exact ⟨_, takes_number hdigit⟩
  rw [if_neg hdigit] at h
  by_cases hpoint : c = '.' ∧ cs.head?.any Char.isDigit = true
  · rw [if_pos hpoint] at h
    obtain rfl := Except.ok.inj h
    obtain ⟨rfl, hhead⟩ := hpoint
    cases cs with
    | nil => simp at hhead
    | cons d cs => exact ⟨_, takes_pointed (by simpa using hhead)⟩
  rw [if_neg hpoint] at h
  cases hm : Mark.ofChar? c with
  | some m =>
    rw [hm, ← utf8Size_of_ofChar? hm] at h
    obtain rfl := Except.ok.inj h
    refine ⟨_, takes_single (.mark hm) fun ds k' hds hk => ?_⟩
    rcases hk.of_mark hm with ⟨rfl, -⟩ | ⟨hc, hdecimal, -⟩
    · rfl
    · -- a point in front of a digit has been read as a number
      obtain ⟨d, ds, rfl, hd⟩ := hdecimal.exists_cons
      obtain ⟨more, rfl⟩ := hds
      exact absurd ⟨hc, by simpa using hd⟩ hpoint
  | none =>
    rw [hm] at h
    obtain rfl := Except.ok.inj h
    have hstray : IsStray c :=
      ⟨hblank, hquote, hhash, by simpa using hstart, by simpa using hdigit, hm⟩
    exact ⟨_, takes_single (.stray hstray) fun ds k' _ hk => (hk.of_isStray hstray).1⟩

/-! ## 5. A token by itself -/

theorem startsComment_iff : startsComment cs = true ↔ ['/', '/'] <+: cs := by
  constructor
  · intro h
    unfold startsComment at h
    split at h
    · exact List.prefix_append ['/', '/'] _
    · simp at h
  · rintro ⟨rest, rfl⟩
    rfl

theorem Spelled.not_isAsciiBlank (h : Spelled (c :: cs) k) : Text.isAsciiBlank c = false := by
  cases h with
  | text | hex | pointed => rfl
  | word hstart =>
    exact isAsciiBlank_of_isBlank (ne_of_isWordChar (isWordChar_of_isWordStart hstart)).1
  | number h => exact isAsciiBlank_of_isBlank (ne_of_isWordChar (isWordChar_of_isDigit h.isDigit)).1
  | mark h =>
    unfold Mark.ofChar? at h
    split at h
    case h_10 => simp at h
    all_goals rfl
  | stray h => exact h.blank

theorem Spelled.not_startsComment (h : Spelled cs k) : startsComment cs = false := by
  rw [← Bool.not_eq_true, startsComment_iff]
  rintro ⟨rest, rfl⟩
  rcases h.of_mark rfl with ⟨h, -⟩ | ⟨h, -⟩
  · simp at h
  · exact absurd h (by decide)

/-- Only a literal can be cut short. -/
theorem exists_scan_of_ne (h : c ≠ '"') (cs : List Char) : ∃ l, scan c cs = .ok l := by
  unfold scan
  rw [if_neg h]
  split_ifs
  · exact ⟨_, rfl⟩
  · exact ⟨_, rfl⟩
  · exact ⟨_, rfl⟩
  · exact ⟨_, rfl⟩
  · split
    · exact ⟨_, rfl⟩
    · exact ⟨_, rfl⟩

theorem Spelled.exists_scan (h : Spelled (c :: cs) k) (rest : List Char) :
    ∃ l, scan c (cs ++ rest) = .ok l := by
  by_cases hquote : c = '"'
  · subst hquote
    obtain ⟨inner, body, rfl, hinner, -⟩ := h.of_quote
    rw [scan, if_pos rfl, List.append_assoc, List.singleton_append, hinner.textBody]
    exact ⟨_, rfl⟩
  · exact exists_scan_of_ne hquote _

/-- **The longest token that stands at a place is read there.** -/
theorem Spelled.scans (h : Spelled cs k) (hcomment : ¬ ['/', '/'] <+: cs ++ rest)
    (hlongest : ∀ pre k', pre <+: cs ++ rest → Spelled pre k' → pre <+: cs) : Scans cs k rest := by
  obtain ⟨c, cs, rfl⟩ := List.exists_cons_of_ne_nil h.ne_nil
  obtain ⟨l, hscan⟩ := h.exists_scan rest
  obtain ⟨span, htakes⟩ := exists_takes_of_scan h.not_isAsciiBlank hscan
  have htext : c :: cs ++ rest = span ++ l.rest := htakes.text
  -- both texts are tokens, so neither is longer than the other
  have hle : span <+: c :: cs := hlongest span _ ⟨_, htext.symm⟩ htakes.spelled
  have hge : c :: cs <+: span := htakes.longest _ k (List.prefix_append _ _) h
  obtain rfl : span = c :: cs := hle.eq_of_length_le hge.length_le
  have hkind : l.kind = k := h.functional htakes.spelled
  have hrest : rest = l.rest := List.append_cancel_left htext
  have hstarts : startsComment (c :: (cs ++ rest)) = false := by
    rw [← Bool.not_eq_true]
    exact mt startsComment_iff.mp hcomment
  intro offset
  rw [List.cons_append, lexFrom_of_scan h.not_isAsciiBlank hstarts hscan, htakes.size, hkind, hrest]

/-- **The text of a token, read by itself, is that token.** -/
theorem Spelled.lex (h : Spelled cs k) (line base : Nat) :
    lex line base cs = .ok ⟨[⟨k, 0⟩], Text.byteLength cs⟩ := by
  have hscans : Scans cs k [] := by
    refine h.scans ?_ fun pre _ hpre _ => by rwa [List.append_nil] at hpre
    rw [List.append_nil, ← startsComment_iff, h.not_startsComment]
    exact Bool.false_ne_true
  have hread := hscans 0
  rw [List.append_nil] at hread
  simp [Token.lex, hread, lexFrom, Except.map, Except.mapError, Line.behind]

/-! ## 6. A line -/

/-- A token where it stands: the blanks in front of it, its text, and its kind. -/
structure Piece where
  gap : List Char
  span : List Char
  kind : Kind

/-- The piece of the line. -/
def Piece.chars (p : Piece) : List Char := p.gap ++ p.span

/-- What holds of a piece in front of the text behind it: blanks, then the longest text there that
is a token, which is of one kind only and is read by itself as the same token. -/
structure Piece.Stands (p : Piece) (behind : List Char) : Prop where
  gap : ∀ c ∈ p.gap, Text.isAsciiBlank c = true
  nonempty : p.span ≠ []
  comment : ¬ ['/', '/'] <+: p.span ++ behind
  spelled : Spelled p.span p.kind
  functional : ∀ k, Spelled p.span k → k = p.kind
  alone : ∀ line base, Token.lex line base p.span = .ok ⟨[⟨p.kind, 0⟩], Text.byteLength p.span⟩
  longest : ∀ pre k, pre <+: p.span ++ behind → Spelled pre k → pre <+: p.span

/-- The tokens of pieces that follow `offset` bytes. -/
def placed (offset : Nat) : List Piece → List Token
  | [] => []
  | p :: ps =>
    ⟨p.kind, offset + Text.byteLength p.gap⟩ :: placed (offset + Text.byteLength p.chars) ps

theorem length_placed (offset : Nat) (ps : List Piece) : (placed offset ps).length = ps.length := by
  induction ps generalizing offset with
  | nil => rfl
  | cons p ps ih => rw [placed, List.length_cons, ih, List.length_cons]

theorem getElem?_placed (offset : Nat) (before : List Piece) (p : Piece) (after : List Piece) :
    (placed offset (before ++ p :: after))[before.length]?
      = some ⟨p.kind, offset + Text.byteLength (before.flatMap Piece.chars ++ p.gap)⟩ := by
  induction before generalizing offset with
  | nil => rfl
  | cons q before ih =>
    rw [List.cons_append, placed, List.length_cons, List.getElem?_cons_succ, ih,
      List.flatMap_cons, List.append_assoc, Text.byteLength_append q.chars, Nat.add_assoc]

theorem utf8Size_of_isAsciiBlank (h : Text.isAsciiBlank c = true) : c.utf8Size = 1 := by
  simp only [Text.isAsciiBlank, Bool.or_eq_true, beq_iff_eq] at h
  rcases h with (((rfl | rfl) | rfl) | rfl) | rfl <;> rfl

theorem lexFrom_blanks {blanks : List Char} (h : ∀ c ∈ blanks, Text.isAsciiBlank c = true)
    (offset : Nat) (cs : List Char) :
    lexFrom offset (blanks ++ cs) = lexFrom (offset + Text.byteLength blanks) cs := by
  induction blanks generalizing offset with
  | nil => rfl
  | cons c blanks ih =>
    rw [List.forall_mem_cons] at h
    have hc : c.utf8Size = 1 := utf8Size_of_isAsciiBlank h.1
    rw [List.cons_append, lexFrom_blank h.1, ih h.2, Text.byteLength_cons, hc, Nat.add_assoc]

/-- Behind its first blanks a text ends, or a comment starts, or a token stands there and the
reading goes on behind it. -/
theorem exists_gap {offset : Nat} {l : Line} (h : lexFrom offset cs = .ok l) :
    ∃ gap behind, (∀ c ∈ gap, Text.isAsciiBlank c = true) ∧ cs = gap ++ behind
      ∧ ((behind = [] ∨ ['/', '/'] <+: behind) ∧ l = ⟨[], offset + Text.byteLength gap⟩
        ∨ ∃ (lexeme : Lexeme) (span : List Char) (l' : Line),
            lexeme.Takes span behind ∧ ¬ ['/', '/'] <+: behind
            ∧ lexFrom (offset + Text.byteLength gap + Text.byteLength span) lexeme.rest = .ok l'
            ∧ l = l'.behind [⟨lexeme.kind, offset + Text.byteLength gap⟩]) := by
  have hgap (c : Char) (hc : c ∈ cs.takeWhile Text.isAsciiBlank) : Text.isAsciiBlank c = true :=
    List.mem_takeWhile_imp hc
  have hsplit := List.takeWhile_append_dropWhile (p := Text.isAsciiBlank) (l := cs)
  refine ⟨_, _, hgap, hsplit.symm, ?_⟩
  rw [← hsplit, lexFrom_blanks hgap] at h
  have hhead := List.head?_dropWhile_not Text.isAsciiBlank cs
  generalize cs.takeWhile Text.isAsciiBlank = gap at h ⊢
  generalize cs.dropWhile Text.isAsciiBlank = behind at h hhead ⊢
  cases behind with
  | nil =>
    rw [lexFrom] at h
    exact .inl ⟨.inl rfl, (Except.ok.inj h).symm⟩
  | cons c cs =>
    have hblank : Text.isAsciiBlank c = false := by simpa using hhead
    by_cases hcomment : startsComment (c :: cs) = true
    · rw [lexFrom, if_neg (by simp [hblank]), if_pos hcomment] at h
      exact .inl ⟨.inr (startsComment_iff.mp hcomment), (Except.ok.inj h).symm⟩
    · right
      cases hscan : scan c cs with
      | error f =>
        rw [lexFrom, if_neg (by simp [hblank]), if_neg hcomment] at h
        split at h
        · simp at h
        · simp_all
      | ok lexeme =>
        obtain ⟨span, htakes⟩ := exists_takes_of_scan hblank hscan
        rw [lexFrom_of_scan hblank (by simpa using hcomment) hscan, htakes.size] at h
        cases hrest : lexFrom (offset + Text.byteLength gap + Text.byteLength span)
            lexeme.rest with
        | error f => simp [hrest, Except.map] at h
        | ok l' =>
          rw [hrest] at h
          exact ⟨lexeme, span, l', htakes, mt startsComment_iff.mpr hcomment, hrest,
            (Except.ok.inj h).symm⟩

/-- **A text is divided among its tokens.** -/
theorem exists_pieces {offset : Nat} {l : Line} (h : lexFrom offset cs = .ok l) :
    ∃ pieces blanks rest, cs = pieces.flatMap Piece.chars ++ (blanks ++ rest)
      ∧ (∀ c ∈ blanks, Text.isAsciiBlank c = true)
      ∧ (rest = [] ∨ ['/', '/'] <+: rest)
      ∧ l = ⟨placed offset pieces,
          offset + Text.byteLength (pieces.flatMap Piece.chars ++ blanks)⟩
      ∧ ∀ before p after, pieces = before ++ p :: after →
          p.Stands (after.flatMap Piece.chars ++ (blanks ++ rest)) := by
  -- on the length: behind a token stands less than the text
  induction hn : cs.length using Nat.strongRecOn generalizing offset cs l with
  | ind n ih =>
  subst hn
  obtain ⟨gap, behind, hgap, rfl, ⟨hrest, rfl⟩ | ⟨lexeme, span, l', htakes, hcomment, hl', rfl⟩⟩ :=
    exists_gap h
  · exact ⟨[], gap, behind, rfl, hgap, hrest, rfl, by simp⟩
  have htext := htakes.text
  have hlt : lexeme.rest.length < (gap ++ behind).length := by
    have hpos := List.length_pos_of_ne_nil htakes.spelled.ne_nil
    rw [htext, List.length_append, List.length_append]
    omega
  obtain ⟨pieces, blanks, rest, hmore, hblanks, hrest, rfl, hstands⟩ := ih _ hlt hl' rfl
  rw [hmore] at htext
  refine ⟨⟨gap, span, lexeme.kind⟩ :: pieces, blanks, rest, ?_, hblanks, hrest, ?_, ?_⟩
  · rw [htext, List.flatMap_cons, List.append_assoc, Piece.chars, List.append_assoc]
  · simp only [Line.behind, placed, Piece.chars, List.flatMap_cons, Text.byteLength_append,
      Nat.add_assoc, List.singleton_append]
  · intro before p after heq
    cases before with
    | nil =>
      obtain ⟨rfl, rfl⟩ := List.cons.inj heq
      rw [htext] at htakes hcomment
      exact ⟨hgap, htakes.spelled.ne_nil, hcomment, htakes.spelled,
        fun k hk => htakes.spelled.functional hk, htakes.spelled.lex, htakes.longest⟩
    | cons q before => exact hstands before p after (List.cons.inj heq).2

/-- **Where a token was read.**  Its text stands at its byte, and the reading went on behind it
with the tokens behind it. -/
theorem exists_span {offset : Nat} {l : Line} {before behind : List Token} {t : Token}
    (h : lexFrom offset cs = .ok l) (htokens : l.tokens = before ++ t :: behind) :
    ∃ pre span post, cs = pre ++ (span ++ post) ∧ t.offset = offset + Text.byteLength pre
      ∧ Spelled span t.kind
      ∧ (∀ pre' k, pre' <+: span ++ post → Spelled pre' k → pre' <+: span)
      ∧ lexFrom (t.offset + Text.byteLength span) post = .ok ⟨behind, l.stop⟩ := by
  -- on the tokens in front: each of them is passed over together with the blanks before it
  induction before generalizing offset cs l with
  | nil =>
    obtain ⟨gap, rest, hgap, rfl, ⟨-, rfl⟩ | ⟨lexeme, span, l', htakes, -, hl', rfl⟩⟩ :=
      exists_gap h
    · simp at htokens
    · obtain ⟨rfl, rfl⟩ := List.cons.inj htokens
      have htext := htakes.text
      have hlongest := htakes.longest
      rw [htext] at hlongest
      exact ⟨gap, span, lexeme.rest, by rw [htext], rfl, htakes.spelled, hlongest, hl'⟩
  | cons u before ih =>
    obtain ⟨gap, rest, hgap, rfl, ⟨-, rfl⟩ | ⟨lexeme, span, l', htakes, -, hl', rfl⟩⟩ :=
      exists_gap h
    · simp at htokens
    · obtain ⟨-, htokens⟩ := List.cons.inj htokens
      obtain ⟨pre, text, post, hrest, hoffset, hspelled, hlongest, hbehind⟩ := ih hl' htokens
      refine ⟨gap ++ span ++ pre, text, post, ?_, ?_, hspelled, hlongest, hbehind⟩
      · rw [htakes.text, hrest]
        simp only [List.append_assoc]
      · rw [hoffset]
        simp only [Text.byteLength_append]
        omega

/-! ## 7. Places in the bytes of the line -/

theorem utf8ByteSize_ofList (cs : List Char) :
    (String.ofList cs).utf8ByteSize = Text.byteLength cs := by
  induction cs with
  | nil => rfl
  | cons c cs ih =>
    rw [← List.singleton_append, String.ofList_append, String.utf8ByteSize_append, ih,
      Text.byteLength_append]
    simp

/-- Behind a part of a text a character begins. -/
theorem isValid_append (pre post : List Char) :
    String.Pos.Raw.IsValid (String.ofList (pre ++ post)) ⟨Text.byteLength pre⟩ := by
  rw [String.Pos.Raw.isValid_iff_exists_append]
  refine ⟨String.ofList pre, String.ofList post, String.ofList_append, ?_⟩
  rw [String.rawEndPos, utf8ByteSize_ofList]

theorem byteLength_pos (h : cs ≠ []) : 0 < Text.byteLength cs := by
  obtain ⟨c, cs, rfl⟩ := List.exists_cons_of_ne_nil h
  exact Nat.add_pos_left c.utf8Size_pos _

theorem pairwise_placed (offset : Nat) {ps : List Piece} (h : ∀ p ∈ ps, p.span ≠ []) :
    (placed offset ps).Pairwise (fun t u => t.offset < u.offset)
      ∧ ∀ t ∈ placed offset ps,
          offset ≤ t.offset ∧ t.offset < offset + Text.byteLength (ps.flatMap Piece.chars) := by
  induction ps generalizing offset with
  | nil => simp [placed]
  | cons p ps ih =>
    rw [List.forall_mem_cons] at h
    obtain ⟨hpairwise, hbounds⟩ := ih (offset + Text.byteLength p.chars) h.2
    have hpos : 0 < Text.byteLength p.span := byteLength_pos h.1
    have hchars : Text.byteLength p.chars = Text.byteLength p.gap + Text.byteLength p.span :=
      Text.byteLength_append _ _
    rw [placed, List.flatMap_cons, Text.byteLength_append, List.pairwise_cons,
      List.forall_mem_cons]
    refine ⟨⟨fun u hu => ?_, hpairwise⟩, ⟨?_, ?_⟩, fun t ht => ?_⟩
    · have hu := (hbounds u hu).1
      dsimp only
      omega
    · dsimp only
      omega
    · dsimp only
      omega
    · have ht := hbounds t ht
      omega

/-- **Every character of a line is accounted for.**  A line that is read is blanks and tokens in
turn, then blanks, and then nothing more or a comment; the reading stops there.  Each token has
the kind and the byte of its text, which is cut out safely, and which by itself determines the
kind and is as long as it can be. -/
theorem line_is_covered {line base : Nat} {l : Line} (h : lex line base cs = .ok l) :
    ∃ pieces blanks rest, cs = pieces.flatMap Piece.chars ++ (blanks ++ rest)
      ∧ (∀ c ∈ blanks, Text.isAsciiBlank c = true)
      ∧ (rest = [] ∨ ['/', '/'] <+: rest)
      ∧ l.stop = Text.byteLength (pieces.flatMap Piece.chars ++ blanks)
      ∧ Text.slice? cs l.stop (Text.byteLength cs) = some rest
      ∧ l.tokens.length = pieces.length
      ∧ (∀ before p after, pieces = before ++ p :: after → ∃ t : Token,
          l.tokens[before.length]? = some t
            ∧ t.kind = p.kind
            ∧ t.offset = Text.byteLength (before.flatMap Piece.chars ++ p.gap)
            ∧ t.column = t.offset + 1
            ∧ String.Pos.Raw.IsValid (String.ofList cs) ⟨t.offset⟩
            ∧ Text.slice? cs t.offset (t.offset + Text.byteLength p.span) = some p.span
            ∧ p.Stands (after.flatMap Piece.chars ++ (blanks ++ rest)))
      ∧ (l.tokens.Pairwise fun t u => t.offset < u.offset)
      ∧ ∀ t ∈ l.tokens, t.offset < l.stop := by
  cases hread : lexFrom 0 cs with
  | error f => simp [lex, hread, Except.mapError] at h
  | ok l' =>
    obtain rfl : l' = l := by simpa [lex, hread, Except.mapError] using h
    obtain ⟨pieces, blanks, rest, rfl, hblanks, hrest, rfl, hstands⟩ := exists_pieces hread
    have hne (p : Piece) (hp : p ∈ pieces) : p.span ≠ [] := by
      obtain ⟨before, after, heq⟩ := List.append_of_mem hp
      exact (hstands before p after heq).nonempty
    obtain ⟨hpairwise, hbounds⟩ := pairwise_placed 0 hne
    refine ⟨pieces, blanks, rest, rfl, hblanks, hrest, Nat.zero_add _, ?_, length_placed 0 pieces,
      ?_, hpairwise, ?_⟩
    · rw [← List.append_assoc, Nat.zero_add]
      exact Text.slice?_append _ _
    · intro before p after heq
      have hget := getElem?_placed 0 before p after
      rw [← heq, Nat.zero_add] at hget
      have hcs : pieces.flatMap Piece.chars ++ (blanks ++ rest)
          = (before.flatMap Piece.chars ++ p.gap)
            ++ (p.span ++ (after.flatMap Piece.chars ++ (blanks ++ rest))) := by
        simp [heq, Piece.chars]
      refine ⟨_, hget, rfl, rfl, rfl, ?_, ?_, hstands before p after heq⟩
      · rw [hcs]
        exact isValid_append _ _
      · rw [hcs]
        exact Text.slice?_between _ _ _
    · intro t ht
      have hlt := (hbounds t ht).2
      rw [Nat.zero_add] at hlt
      rw [Nat.zero_add, Text.byteLength_append]
      exact Nat.lt_add_right _ hlt

/-- A line without a blank between its tokens, with slashes inside a literal, a character of two
bytes, and a comment. -/
def mixedLine : List Char := ['x', '"', '/', '/', 'é', '"', '.', '5', '%', ' ', '/', '/']

theorem lex_mixedLine : lex 1 0 mixedLine = .ok
    ⟨[⟨.word "x", 0⟩, ⟨.text "//é", 1⟩, ⟨.number (numberValue ['.', '5']), 7⟩, ⟨.stray "%", 9⟩],
      11⟩ := by
  have hword : scan 'x' ['"', '/', '/', 'é', '"', '.', '5', '%', ' ', '/', '/']
      = .ok ⟨.word "x", 1, ['"', '/', '/', 'é', '"', '.', '5', '%', ' ', '/', '/']⟩ := rfl
  have htext : scan '"' ['/', '/', 'é', '"', '.', '5', '%', ' ', '/', '/']
      = .ok ⟨.text "//é", 6, ['.', '5', '%', ' ', '/', '/']⟩ := rfl
  have hnumber : scan '.' ['5', '%', ' ', '/', '/']
      = .ok ⟨.number (numberValue ['.', '5']), 2, ['%', ' ', '/', '/']⟩ := rfl
  have hstray : scan '%' [' ', '/', '/'] = .ok ⟨.stray "%", 1, [' ', '/', '/']⟩ := rfl
  rw [lex, mixedLine, lexFrom_of_scan rfl rfl hword]
  dsimp only
  rw [lexFrom_of_scan rfl rfl htext]
  dsimp only
  rw [lexFrom_of_scan rfl rfl hnumber]
  dsimp only
  rw [lexFrom_of_scan rfl rfl hstray]
  dsimp only
  rw [lexFrom_blank rfl, lexFrom]
  rfl

theorem line_is_covered_mixedLine :
    ∃ (pieces : List Piece) (blanks rest : List Char),
      mixedLine = pieces.flatMap Piece.chars ++ (blanks ++ rest)
        ∧ pieces.length = 4 ∧ rest = ['/', '/'] := by
  obtain ⟨pieces, blanks, rest, htext, -, -, -, hslice, hlength, -⟩ :=
    line_is_covered lex_mixedLine
  have hrest : Text.slice? mixedLine 11 (Text.byteLength mixedLine) = some ['/', '/'] := by decide
  exact ⟨pieces, blanks, rest, htext, hlength.symm, Option.some.inj (hslice.symm.trans hrest)⟩

end Token
end StageScript

/-
# How tokens are spelled

`Spells cs ks` says that the text `cs` is read as tokens of the kinds `ks`, whatever stands behind
it, if only that begins with a blank, a comma or a closing parenthesis: behind each of these a
token ends.  So the spelling of a whole line is put together from the spellings of its parts, and
where a part begins its first token has the offset of the part (`offset_of_lexFrom`).

A line of parts with single blanks between them can be cut behind any part.  What is behind the
cut is the rest of the line as the forms take it (`exists_cut`).
-/
import StageScript.Command.Reading
import StageScript.Proofs.Decimal.RoundTrip
import StageScript.Proofs.Expr.Grammar

namespace StageScript
namespace Token

open StageScript.Expr (kinds kinds_nil kinds_cons kinds_append)

/-! ## 1. One token -/

/-- A line with tokens in front of its own. -/
def Line.behind (ts : List Token) (l : Line) : Line := ⟨ts ++ l.tokens, l.stop⟩

theorem lexFrom_blank {c : Char} (hc : Text.isAsciiBlank c = true) (offset : Nat)
    (cs : List Char) : lexFrom offset (c :: cs) = lexFrom (offset + 1) cs := by
  rw [lexFrom, if_pos hc]

theorem lexFrom_of_scan {c : Char} {cs : List Char} {l : Lexeme} {offset : Nat}
    (hc : Text.isAsciiBlank c = false) (hcomment : startsComment (c :: cs) = false)
    (hscan : scan c cs = .ok l) :
    lexFrom offset (c :: cs)
      = (lexFrom (offset + l.size) l.rest).map (Line.behind [⟨l.kind, offset⟩]) := by
  rw [lexFrom, if_neg (by simp [hc]), if_neg (by simp [hcomment])]
  split
  · rename_i f hf
    rw [hscan] at hf
    simp at hf
  · rename_i l' hl'
    obtain rfl : l = l' := Except.ok.inj (hscan.symm.trans hl')
    cases lexFrom (offset + l.size) l.rest <;> rfl

/-! ## 2. Tokens of every kind -/

/-- A token may end in front of this: a blank, a comma, a closing parenthesis, or nothing. -/
def Breaks (rest : List Char) : Prop :=
  rest.head?.all (fun c => c == ' ' || c == ',' || c == ')') = true

theorem Breaks.head?_any {p : Char → Bool} {rest : List Char} (h : Breaks rest)
    (hp : p ' ' = false ∧ p ',' = false ∧ p ')' = false) : rest.head?.any p = false := by
  cases rest with
  | nil => rfl
  | cons c cs =>
    have hc : (c = ' ' ∨ c = ',') ∨ c = ')' := by simpa [Breaks] using h
    rcases hc with (rfl | rfl) | rfl
    · exact hp.1
    · exact hp.2.1
    · exact hp.2.2

theorem byteLength_eq_length {cs : List Char} (h : ∀ c ∈ cs, c.utf8Size = 1) :
    Text.byteLength cs = cs.length := by
  induction cs with
  | nil => rfl
  | cons c cs ih =>
    rw [List.forall_mem_cons] at h
    rw [Text.byteLength_cons, h.1, ih h.2, List.length_cons, Nat.add_comm]

/-- Letters, digits and underscores lie between two bounds. -/
theorem toNat_of_isWordChar {c : Char} (h : isWordChar c = true) :
    48 ≤ c.toNat ∧ c.toNat < 128 := by
  simp only [isWordChar, Char.isAlphanum, Char.isAlpha, Char.isUpper, Char.isLower, Char.isDigit,
    Bool.or_eq_true, Bool.and_eq_true, decide_eq_true_eq, beq_iff_eq, ge_iff_le,
    UInt32.le_iff_toNat_le] at h
  rcases h with ((⟨hlow, hhigh⟩ | ⟨hlow, hhigh⟩) | ⟨hlow, hhigh⟩) | rfl
  · exact ⟨Nat.le_trans (by decide) hlow, Nat.lt_of_le_of_lt hhigh (by decide)⟩
  · exact ⟨Nat.le_trans (by decide) hlow, Nat.lt_of_le_of_lt hhigh (by decide)⟩
  · exact ⟨hlow, Nat.lt_of_le_of_lt hhigh (by decide)⟩
  · decide

theorem utf8Size_of_isWordChar {c : Char} (h : isWordChar c = true) : c.utf8Size = 1 := by
  have hle : c.val ≤ 127 := by
    rw [UInt32.le_iff_toNat_le]
    exact Nat.le_of_lt_succ (toNat_of_isWordChar h).2
  exact if_pos hle

theorem isWordChar_of_isAlphanum {c : Char} (h : c.isAlphanum = true) : isWordChar c = true := by
  simp [isWordChar, h]

theorem isWordChar_of_isDigit {c : Char} (h : c.isDigit = true) : isWordChar c = true :=
  isWordChar_of_isAlphanum (by simp [Char.isAlphanum, h])

theorem isWordChar_of_isWordStart {c : Char} (h : isWordStart c = true) : isWordChar c = true := by
  simp only [isWordStart, isWordChar, Char.isAlphanum, Bool.or_eq_true] at h ⊢
  exact h.imp_left .inl

theorem not_isWordStart_of_isDigit {c : Char} (h : c.isDigit = true) : ¬ isWordStart c = true := by
  simp only [isWordStart, Char.isDigit, Char.isAlpha, Char.isUpper, Char.isLower,
    Bool.or_eq_true, Bool.and_eq_true, decide_eq_true_eq, beq_iff_eq, ge_iff_le,
    UInt32.le_iff_toNat_le] at h ⊢
  rintro ((⟨hlow, -⟩ | ⟨hlow, -⟩) | rfl)
  · exact absurd (hlow.trans h.2) (by decide)
  · exact absurd (hlow.trans h.2) (by decide)
  · exact absurd h.2 (by decide)

/-- A character of a name begins nothing else. -/
theorem ne_of_isWordChar {c : Char} (h : isWordChar c = true) :
    Text.isBlank c = false ∧ c ≠ '"' ∧ c ≠ '#' ∧ c ≠ '/' ∧ c ≠ '.' := by
  obtain ⟨hlow, hhigh⟩ := toNat_of_isWordChar h
  refine ⟨?_, ?_, ?_, ?_, ?_⟩
  · simp only [Text.isBlank, Bool.or_eq_false_iff, Bool.and_eq_false_iff, decide_eq_false_iff_not,
      beq_eq_false_iff_ne]
    omega
  all_goals
    rintro rfl
    exact absurd hlow (by decide)

theorem isAsciiBlank_of_isBlank {c : Char} (h : Text.isBlank c = false) :
    Text.isAsciiBlank c = false := by
  rw [← Bool.not_eq_true] at h ⊢
  exact mt Text.isBlank_of_isAsciiBlank h

theorem startsComment_of_ne {c : Char} (h : c ≠ '/') (cs : List Char) :
    startsComment (c :: cs) = false := by
  unfold startsComment
  split
  · simp_all
  · rfl

/-- The text is read as one token of the kind in front of `rest`. -/
def Scans (cs : List Char) (k : Kind) (rest : List Char) : Prop :=
  ∀ offset, lexFrom offset (cs ++ rest)
    = (lexFrom (offset + Text.byteLength cs) rest).map (Line.behind [⟨k, offset⟩])

theorem scans_of_scan {c : Char} {cs rest : List Char} {k : Kind}
    (hc : Text.isAsciiBlank c = false) (hcomment : startsComment (c :: (cs ++ rest)) = false)
    (hscan : scan c (cs ++ rest) = .ok ⟨k, Text.byteLength (c :: cs), rest⟩) :
    Scans (c :: cs) k rest :=
  fun _ => lexFrom_of_scan hc hcomment hscan

/-- A name begins with a letter or an underscore and goes on with these or digits. -/
def isName (name : String) : Bool :=
  match name.toList with
  | [] => false
  | c :: cs => isWordStart c && cs.all isWordChar

theorem isWordChar_of_isName {name : String} (h : isName name = true) :
    name.toList ≠ [] ∧ ∀ c ∈ name.toList, isWordChar c = true := by
  unfold isName at h
  split at h
  · simp at h
  · rename_i c cs hcs
    rw [Bool.and_eq_true, List.all_eq_true] at h
    rw [hcs]
    exact ⟨by simp, List.forall_mem_cons.mpr ⟨isWordChar_of_isWordStart h.1, h.2⟩⟩

theorem scans_word {name : String} (hname : isName name = true) {rest : List Char}
    (hrest : rest.head?.any isWordChar = false) : Scans name.toList (.word name) rest := by
  unfold isName at hname
  split at hname
  · simp at hname
  · rename_i c cs hcs
    rw [Bool.and_eq_true, List.all_eq_true] at hname
    obtain ⟨hstart, hmore⟩ := hname
    obtain ⟨htake, hdrop⟩ := Text.span_append hmore hrest
    have hc := isWordChar_of_isWordStart hstart
    obtain ⟨hblank, hquote, hhash, hslash, -⟩ := ne_of_isWordChar hc
    have hsize : Text.byteLength (c :: cs) = (c :: cs).length :=
      byteLength_eq_length (List.forall_mem_cons.mpr
        ⟨utf8Size_of_isWordChar hc, fun d hd => utf8Size_of_isWordChar (hmore d hd)⟩)
    have hword : String.ofList (c :: cs) = name := by rw [← hcs, String.ofList_toList]
    rw [hcs]
    refine scans_of_scan (isAsciiBlank_of_isBlank hblank) (startsComment_of_ne hslash _) ?_
    rw [scan, if_neg hquote, if_neg hhash, if_pos hstart]
    simp only [htake, hdrop, hword, hsize]

theorem numberSpan_numeral (n : Decimal.Numeral) {rest : List Char}
    (hrest : rest.head?.any (fun c => c.isDigit || c == '.') = false) :
    numberSpan (n.chars ++ rest) = (n.chars, rest) := by
  have hdigit : rest.head?.any Char.isDigit = false := by
    cases rest with
    | nil => rfl
    | cons c cs => simp_all
  have htail : (n.tail ++ rest).head?.any Char.isDigit = false := by
    unfold Decimal.Numeral.tail
    split_ifs
    · exact hdigit
    · rfl
  obtain ⟨htake, hdrop⟩ := Text.span_append n.isDigit_whole htail
  obtain ⟨htake', hdrop'⟩ := Text.span_append n.isDigit_fraction hdigit
  unfold numberSpan Decimal.Numeral.chars
  rw [List.append_assoc, htake, hdrop]
  unfold Decimal.Numeral.tail
  cases hfraction : n.fraction with
  | nil =>
    simp only [if_true, List.nil_append, List.append_nil]
    split
    · simp_all
    · rfl
  | cons d ds =>
    rw [hfraction] at htake' hdrop'
    have hd : d.isDigit = true := n.isDigit_fraction d (by simp [hfraction])
    simp only [reduceCtorEq, if_false, List.cons_append, hd, if_true]
    rw [← List.cons_append, htake', hdrop']

theorem utf8Size_of_mem_numeral {n : Decimal.Numeral} {c : Char} (hc : c ∈ n.chars) :
    c.utf8Size = 1 := by
  have hdigit (c : Char) (hc : c.isDigit = true) : c.utf8Size = 1 :=
    utf8Size_of_isWordChar (isWordChar_of_isDigit hc)
  rw [Decimal.Numeral.chars, List.mem_append] at hc
  rcases hc with hc | hc
  · exact hdigit c (n.isDigit_whole c hc)
  · unfold Decimal.Numeral.tail at hc
    split_ifs at hc
    · simp at hc
    · rcases List.mem_cons.mp hc with rfl | hc
      · rfl
      · exact hdigit c (n.isDigit_fraction c hc)

theorem scans_number (n : Decimal.Numeral) {rest : List Char}
    (hrest : rest.head?.any (fun c => c.isDigit || c == '.') = false) :
    Scans n.chars (.number n.nearest) rest := by
  have hspan := numberSpan_numeral n hrest
  have hvalue : numberValue n.chars = n.nearest := by
    rw [numberValue, n.read?_chars]
    rfl
  have hsize : Text.byteLength n.chars = n.chars.length :=
    byteLength_eq_length fun c hc => utf8Size_of_mem_numeral hc
  obtain ⟨d, ds, hchars, hd⟩ : ∃ d ds, n.chars = d :: ds ∧ d.isDigit = true := by
    obtain ⟨d, ds, hwhole⟩ := List.exists_cons_of_ne_nil n.whole_ne_nil
    exact ⟨d, ds ++ n.tail, by simp [Decimal.Numeral.chars, hwhole],
      n.isDigit_whole d (by simp [hwhole])⟩
  rw [hchars] at hspan hvalue hsize ⊢
  obtain ⟨hblank, hquote, hhash, hslash, -⟩ := ne_of_isWordChar (isWordChar_of_isDigit hd)
  have hstart := not_isWordStart_of_isDigit hd
  refine scans_of_scan (isAsciiBlank_of_isBlank hblank) (startsComment_of_ne hslash _) ?_
  rw [scan, if_neg hquote, if_neg hhash, if_neg hstart, if_pos hd]
  rw [List.cons_append] at hspan
  simp only [hspan, hvalue, hsize]

theorem scans_hex {digits : List Char} (hdigits : ∀ c ∈ digits, c.isAlphanum = true)
    {rest : List Char} (hrest : rest.head?.any Char.isAlphanum = false) :
    Scans ('#' :: digits) (.hex (String.ofList ('#' :: digits))) rest := by
  obtain ⟨htake, hdrop⟩ := Text.span_append hdigits hrest
  have hsize : Text.byteLength ('#' :: digits) = ('#' :: digits).length :=
    byteLength_eq_length (List.forall_mem_cons.mpr ⟨rfl, fun d hd =>
      utf8Size_of_isWordChar (isWordChar_of_isAlphanum (hdigits d hd))⟩)
  refine scans_of_scan rfl (startsComment_of_ne (by decide) _) ?_
  rw [scan, if_neg (by decide), if_pos rfl]
  simp only [htake, hdrop, hsize]

/-- A mark ends at once.  A point in front of a digit would begin a number, and a slash in front
of another one a comment. -/
theorem scans_mark {c : Char} {m : Mark} (hm : Mark.ofChar? c = some m) {rest : List Char}
    (hdot : c = '.' → rest.head?.any Char.isDigit = false)
    (hslash : c = '/' → startsComment (c :: rest) = false) : Scans [c] (.mark m) rest := by
  have hcomment : startsComment (c :: rest) = false := by
    by_cases hc : c = '/'
    · exact hslash hc
    · exact startsComment_of_ne hc rest
  unfold Mark.ofChar? at hm
  split at hm
  case h_7 =>
    obtain rfl := Option.some.inj hm
    refine scans_of_scan rfl hcomment ?_
    have hnot : ¬ (('.' : Char) = '.' ∧ rest.head?.any Char.isDigit = true) := by
      simp [hdot rfl]
    rw [List.nil_append, scan, if_neg (by decide), if_neg (by decide), if_neg (by decide),
      if_neg (by decide), if_neg hnot]
    rfl
  case h_10 => simp at hm
  all_goals
    obtain rfl := Option.some.inj hm
    exact scans_of_scan rfl hcomment rfl

/-- A character as the inside of a literal has it. -/
def escape (c : Char) : List Char :=
  if c = '\\' then ['\\', '\\']
  else if c = '"' then ['\\', '"']
  else if c = '\n' then ['\\', 'n']
  else if c = '\t' then ['\\', 't']
  else [c]

/-- A text as a literal. -/
def literal (text : String) : String :=
  String.ofList ('"' :: (text.toList.flatMap escape ++ ['"']))

/-- The inside of a literal is read character by character. -/
theorem textBody_escape_append (size : Nat) (c : Char) (cs : List Char) :
    textBody size (escape c ++ cs)
      = (textBody (size + Text.byteLength (escape c)) cs).map
          fun (body, n, rest) => (c :: body, n, rest) := by
  unfold escape
  split_ifs with hslash hquote hline htab
  · subst hslash
    rw [List.cons_append, List.cons_append, List.nil_append, textBody.eq_def]
    rfl
  · subst hquote
    rw [List.cons_append, List.cons_append, List.nil_append, textBody.eq_def]
    rfl
  · subst hline
    rw [List.cons_append, List.cons_append, List.nil_append, textBody.eq_def]
    rfl
  · subst htab
    rw [List.cons_append, List.cons_append, List.nil_append, textBody.eq_def]
    rfl
  · rw [List.cons_append, List.nil_append, textBody.eq_def]
    simp only [if_neg hquote, if_neg hslash]
    rfl

theorem textBody_escape (size : Nat) (text rest : List Char) :
    textBody size (text.flatMap escape ++ '"' :: rest)
      = .ok (text, size + Text.byteLength (text.flatMap escape) + 1, rest) := by
  induction text generalizing size with
  | nil =>
    rw [List.flatMap_nil, List.nil_append, textBody.eq_def]
    rfl
  | cons c cs ih =>
    rw [List.flatMap_cons, List.append_assoc, textBody_escape_append, ih]
    simp only [Except.map, Text.byteLength_append, Nat.add_assoc]

theorem scans_literal (text : String) (rest : List Char) :
    Scans (literal text).toList (.text text) rest := by
  rw [literal, String.toList_ofList]
  refine scans_of_scan rfl (startsComment_of_ne (by decide) _) ?_
  rw [scan, if_pos rfl, List.append_assoc, List.singleton_append, textBody_escape]
  simp only [Except.map, String.ofList_toList, Text.byteLength_cons, Text.byteLength_append,
    Text.byteLength_nil]
  rfl

/-! ## 3. Texts of several tokens -/

/-- The text is read as tokens of the kinds, in front of everything at which a token may end. -/
def Spells (cs : List Char) (ks : List Kind) : Prop :=
  ∀ offset rest, Breaks rest → ∃ ts, kinds ts = ks ∧
    lexFrom offset (cs ++ rest)
      = (lexFrom (offset + Text.byteLength cs) rest).map (Line.behind ts)

theorem Line.behind_append (ts us : List Token) (l : Line) :
    (l.behind us).behind ts = l.behind (ts ++ us) := by
  simp [Line.behind]

theorem map_behind_map (ts us : List Token) (r : Except Fault Line) :
    (r.map (Line.behind us)).map (Line.behind ts) = r.map (Line.behind (ts ++ us)) := by
  cases r with
  | error f => rfl
  | ok l => exact congrArg Except.ok (Line.behind_append ts us l)

namespace Spells

variable {cs cs' : List Char} {ks ks' : List Kind}

theorem of_scans {k : Kind} (h : ∀ rest, Breaks rest → Scans cs k rest) : Spells cs [k] :=
  fun offset rest hrest => ⟨[⟨k, offset⟩], rfl, h rest hrest offset⟩

/-- A token in front of a text. -/
theorem cons {k : Kind} (h : ∀ rest, Scans cs k (cs' ++ rest)) (h' : Spells cs' ks') :
    Spells (cs ++ cs') (k :: ks') := by
  intro offset rest hrest
  obtain ⟨ts, hts, hlex⟩ := h' (offset + Text.byteLength cs) rest hrest
  refine ⟨⟨k, offset⟩ :: ts, congrArg (k :: ·) hts, ?_⟩
  rw [List.append_assoc, h rest, hlex, map_behind_map, Text.byteLength_append, Nat.add_assoc]
  rfl

/-- Two texts, the second of which begins with a character at which a token may end. -/
theorem append (h : Spells cs ks) (h' : Spells cs' ks') (hbreak : ∀ rest, Breaks (cs' ++ rest)) :
    Spells (cs ++ cs') (ks ++ ks') := by
  intro offset rest hrest
  obtain ⟨ts, hts, hlex⟩ := h offset (cs' ++ rest) (hbreak rest)
  obtain ⟨us, hus, hlex'⟩ := h' (offset + Text.byteLength cs) rest hrest
  refine ⟨ts ++ us, by rw [kinds_append, hts, hus], ?_⟩
  rw [List.append_assoc, hlex, hlex', map_behind_map, Text.byteLength_append, Nat.add_assoc]

theorem blank (h : Spells cs ks) : Spells (' ' :: cs) ks := by
  intro offset rest hrest
  obtain ⟨ts, hts, hlex⟩ := h (offset + 1) rest hrest
  refine ⟨ts, hts, ?_⟩
  rw [List.cons_append, lexFrom_blank rfl, hlex, Text.byteLength_cons, Nat.add_assoc]
  rfl

/-- Two texts with a blank between them. -/
theorem spaced (h : Spells cs ks) (h' : Spells cs' ks') : Spells (cs ++ ' ' :: cs') (ks ++ ks') :=
  h.append h'.blank fun _ => rfl

theorem name {name : String} (h : isName name = true) : Spells name.toList [.word name] :=
  of_scans fun _ hrest => scans_word h (hrest.head?_any (by decide))

theorem literal (text : String) : Spells (literal text).toList [.text text] :=
  of_scans fun rest _ => scans_literal text rest

theorem hex {digits : List Char} (h : ∀ c ∈ digits, c.isAlphanum = true) :
    Spells ('#' :: digits) [.hex (String.ofList ('#' :: digits))] :=
  of_scans fun _ hrest => scans_hex h (hrest.head?_any (by decide))

theorem numeral (n : Decimal.Numeral) : Spells n.chars [.number n.nearest] :=
  of_scans fun _ hrest => scans_number n (hrest.head?_any (by decide))

theorem mark {c : Char} {m : Mark} (hm : Mark.ofChar? c = some m) : Spells [c] [.mark m] :=
  of_scans fun rest hrest => scans_mark hm (fun _ => hrest.head?_any (by decide)) fun _ => by
    have hslash : rest.head?.any (· == '/') = false := hrest.head?_any (by decide)
    unfold startsComment
    split
    · simp_all
    · rfl

/-- A mark that begins no number and no comment, in front of a text. -/
theorem cons_mark {c : Char} {m : Mark} (hm : Mark.ofChar? c = some m) (hdot : c ≠ '.')
    (hslash : c ≠ '/') (h : Spells cs ks) : Spells (c :: cs) (.mark m :: ks) :=
  cons (fun _ => scans_mark hm (fun hc => absurd hc hdot) fun hc => absurd hc hslash) h

/-- A text between parentheses. -/
theorem group (h : Spells cs ks) :
    Spells ('(' :: (cs ++ [')'])) (.mark .leftParen :: (ks ++ [.mark .rightParen])) :=
  cons_mark rfl (by decide) (by decide) (h.append (mark rfl) fun _ => rfl)

/-- A name, a point and another name. -/
theorem property {entity prop : String} (he : isName entity = true) (hp : isName prop = true) :
    Spells (entity ++ "." ++ prop).toList [.word entity, .mark .dot, .word prop] := by
  have hdigit (rest : List Char) : (prop.toList ++ rest).head?.any Char.isDigit = false := by
    unfold isName at hp
    split at hp
    · simp at hp
    · rename_i c cs hcs
      rw [Bool.and_eq_true] at hp
      rw [hcs, List.cons_append, List.head?_cons, Option.any_some, ← Bool.not_eq_true]
      exact fun hc => not_isWordStart_of_isDigit hc hp.1
  have hdot : Spells ('.' :: prop.toList) [.mark .dot, .word prop] :=
    cons (fun rest => scans_mark rfl (fun _ => hdigit rest) fun h => absurd h (by decide)) (name hp)
  have hentity := cons (fun rest => scans_word he rfl) hdot
  rwa [String.toList_append, String.toList_append, List.append_assoc]

end Spells

/-! ## 4. Lines -/

theorem lex_of_spells {cs : List Char} {ks : List Kind} (h : Spells cs ks) (line base : Nat) :
    ∃ ts, kinds ts = ks ∧ lex line base cs = .ok ⟨ts, Text.byteLength cs⟩ := by
  obtain ⟨ts, hts, hlex⟩ := h 0 [] rfl
  refine ⟨ts, hts, ?_⟩
  rw [List.append_nil] at hlex
  simp [lex, hlex, lexFrom, Except.map, Except.mapError, Line.behind]

theorem lex_eq_ok_iff {line base : Nat} {cs : List Char} {l : Line} :
    lex line base cs = .ok l ↔ lexFrom 0 cs = .ok l := by
  unfold lex
  cases lexFrom 0 cs <;> simp [Except.mapError]

/-- A text with tokens is no comment. -/
theorem startsComment_of_lexFrom {offset : Nat} {cs : List Char} {l : Line}
    (h : lexFrom offset cs = .ok l) (hne : l.tokens ≠ []) : startsComment cs = false := by
  unfold startsComment
  split
  · obtain rfl : ⟨[], offset⟩ = l := by
      simpa [lexFrom, Text.isAsciiBlank, startsComment] using h
    exact absurd rfl hne
  · rfl

theorem startsComment_of_spells {cs : List Char} {ks : List Kind} (h : Spells cs ks)
    (hne : ks ≠ []) : startsComment cs = false := by
  obtain ⟨ts, rfl, hlex⟩ := lex_of_spells h 0 0
  refine startsComment_of_lexFrom (lex_eq_ok_iff.mp hlex) ?_
  rintro rfl
  exact hne rfl

/-- A text whose first character is no blank has its first token there. -/
theorem offset_of_lexFrom {offset : Nat} {c : Char} {cs : List Char} {l : Line}
    (hc : Text.isBlank c = false) (h : lexFrom offset (c :: cs) = .ok l) (hne : l.tokens ≠ []) :
    l.tokens.head?.map Token.offset = some offset := by
  rw [lexFrom, if_neg (by simp [isAsciiBlank_of_isBlank hc])] at h
  split at h
  · obtain rfl := Except.ok.inj h
    exact absurd rfl hne
  · split at h
    · simp at h
    · split at h
      · simp at h
      · obtain rfl := Except.ok.inj h
        rfl

end Token

namespace Text

/-- A text that begins and ends with something else than a blank. -/
def Solid (cs : List Char) : Prop :=
  cs.head?.any (fun c => !isBlank c) = true ∧ cs.getLast?.any (fun c => !isBlank c) = true

variable {cs cs' : List Char}

theorem Solid.ne_nil (h : Solid cs) : cs ≠ [] := by
  rintro rfl
  exact absurd h.1 (by decide)

theorem solid_of_forall (hne : cs ≠ []) (h : ∀ c ∈ cs, isBlank c = false) : Solid cs := by
  refine ⟨?_, ?_⟩
  · rw [List.head?_eq_some_head hne, Option.any_some, h _ (List.head_mem hne)]
    rfl
  · rw [List.getLast?_eq_some_getLast hne, Option.any_some, h _ (List.getLast_mem hne)]
    rfl

/-- A text between two characters that are no blanks. -/
theorem solid_between {c d : Char} (hc : isBlank c = false) (hd : isBlank d = false)
    (cs : List Char) : Solid (c :: (cs ++ [d])) := by
  refine ⟨by simp [hc], ?_⟩
  rw [← List.cons_append, List.getLast?_concat]
  simp [hd]

theorem Solid.cons {c : Char} (h : Solid cs) (hc : isBlank c = false) : Solid (c :: cs) := by
  refine ⟨by simp [hc], ?_⟩
  rw [List.getLast?_cons_of_ne_nil h.ne_nil]
  exact h.2

theorem Solid.append (h : Solid cs) (h' : Solid cs') (between : List Char) :
    Solid (cs ++ (between ++ cs')) := by
  obtain ⟨c, cs, rfl⟩ := List.exists_cons_of_ne_nil h.ne_nil
  refine ⟨h.1, ?_⟩
  rw [← List.append_assoc, List.getLast?_append_of_ne_nil _ h'.ne_nil]
  exact h'.2

/-- What is trimmed off behind a solid text are the blanks there. -/
theorem trim_append_of_solid {blanks : List Char} (h : Solid cs)
    (hblanks : ∀ c ∈ blanks, isBlank c = true) : trim (cs ++ blanks) = cs := by
  have hstart {ds : List Char} (hds : ds.head?.any (fun c => !isBlank c) = true) :
      ds.dropWhile isBlank = ds := by
    cases ds with
    | nil => rfl
    | cons c ds =>
      have hc : isBlank c = false := by simpa using hds
      simp [hc]
  have hleft : trimLeft (cs ++ blanks) = cs ++ blanks :=
    hstart (by rw [List.head?_append_of_ne_nil _ h.ne_nil]; exact h.1)
  have hright : cs.reverse.dropWhile isBlank = cs.reverse :=
    hstart (by rw [List.head?_reverse]; exact h.2)
  have hreverse : ∀ c ∈ blanks.reverse, isBlank c = true :=
    fun c hc => hblanks c (List.mem_reverse.mp hc)
  rw [trim, hleft, trimRight, List.reverse_append, List.dropWhile_append_of_pos hreverse, hright,
    List.reverse_reverse]

/-- A solid text has nothing to trim. -/
theorem trim_of_solid (h : Solid cs) : trim cs = cs := by
  have htrim := trim_append_of_solid h (List.forall_mem_nil _)
  rwa [List.append_nil] at htrim

theorem byteLength_cons_eq_add_one (c : Char) (cs : List Char) :
    ∃ n, byteLength (c :: cs) = n + 1 := by
  have hc := c.utf8Size_pos
  exact ⟨c.utf8Size + byteLength cs - 1, by rw [byteLength_cons]; omega⟩

theorem dropBytes?_append (pre rest : List Char) :
    dropBytes? (byteLength pre) (pre ++ rest) = some rest := by
  induction pre with
  | nil =>
    cases rest <;> rfl
  | cons c pre ih =>
    obtain ⟨n, hn⟩ := byteLength_cons_eq_add_one c pre
    have hle : c.utf8Size ≤ n + 1 := by
      rw [← hn, byteLength_cons]
      omega
    have hrest : n + 1 - c.utf8Size = byteLength pre := by
      rw [← hn, byteLength_cons]
      omega
    rw [hn, List.cons_append, dropBytes?, if_pos hle, hrest, ih]

theorem takeBytes?_append (pre rest : List Char) :
    takeBytes? (byteLength pre) (pre ++ rest) = some pre := by
  induction pre with
  | nil =>
    cases rest <;> rfl
  | cons c pre ih =>
    obtain ⟨n, hn⟩ := byteLength_cons_eq_add_one c pre
    have hle : c.utf8Size ≤ n + 1 := by
      rw [← hn, byteLength_cons]
      omega
    have hrest : n + 1 - c.utf8Size = byteLength pre := by
      rw [← hn, byteLength_cons]
      omega
    rw [hn, List.cons_append, takeBytes?, if_pos hle, hrest, ih, Option.map_some]

/-- A part of a text is cut out of it by the bytes in front of the part and its own. -/
theorem slice?_between (pre span post : List Char) :
    slice? (pre ++ (span ++ post)) (byteLength pre) (byteLength pre + byteLength span)
      = some span := by
  rw [slice?, if_pos (Nat.le_add_right _ _), dropBytes?_append, Nat.add_sub_cancel_left]
  exact takeBytes?_append span post

/-- The text behind its first bytes. -/
theorem slice?_append (pre rest : List Char) :
    slice? (pre ++ rest) (byteLength pre) (byteLength (pre ++ rest)) = some rest := by
  have hslice := slice?_between pre rest []
  rwa [List.append_nil, ← byteLength_append] at hslice

end Text

theorem Token.solid_of_isName {name : String} (h : isName name = true) :
    Text.Solid name.toList := by
  obtain ⟨hne, hall⟩ := isWordChar_of_isName h
  exact Text.solid_of_forall hne fun c hc => (ne_of_isWordChar (hall c hc)).1

theorem Token.solid_literal (text : String) : Text.Solid (literal text).toList := by
  rw [literal, String.toList_ofList]
  exact Text.solid_between rfl rfl _

/-- **The rest of a line.**  A line of two parts is cut behind the tokens of the first; what is
left for a form that takes the rest of the line is the second. -/
theorem Command.exists_cut {pre inner : List Char} {ks ks' : List Token.Kind}
    (hpre : Token.Spells pre ks) (hinner : Token.Spells inner ks') (hne : ks' ≠ [])
    (hsolid : Text.Solid inner) (line base : Nat) :
    ∃ ts us, Expr.kinds ts = ks ∧ Expr.kinds us = ks'
      ∧ Token.lex line base (pre ++ ' ' :: inner)
        = .ok ⟨ts ++ us, Text.byteLength (pre ++ ' ' :: inner)⟩
      ∧ remainder (pre ++ ' ' :: inner) ⟨line, base, Text.byteLength (pre ++ ' ' :: inner)⟩ us
        = inner := by
  obtain ⟨ts, hts, hlex⟩ := hpre 0 (' ' :: inner) rfl
  obtain ⟨us, hus, hlex'⟩ := hinner (Text.byteLength pre + 1) [] rfl
  rw [List.append_nil, Token.lexFrom] at hlex'
  rw [Token.lexFrom_blank rfl, Nat.zero_add, hlex'] at hlex
  have hstop : Text.byteLength pre + 1 + Text.byteLength inner
      = Text.byteLength (pre ++ ' ' :: inner) := by
    rw [Text.byteLength_append, Text.byteLength_cons, Nat.add_assoc]
    rfl
  refine ⟨ts, us, hts, hus, ?_, ?_⟩
  · simp [Token.lex, hlex, Except.map, Except.mapError, Token.Line.behind, hstop]
  · -- the tokens of the second part begin where the part begins
    obtain ⟨c, cs, rfl⟩ := List.exists_cons_of_ne_nil hsolid.ne_nil
    have hc : Text.isBlank c = false := by simpa using hsolid.1
    have husne : us ≠ [] := by
      rintro rfl
      exact hne hus.symm
    have hoffset := Token.offset_of_lexFrom hc hlex' (by simpa [Token.Line.behind] using husne)
    simp only [Token.Line.behind, List.append_nil] at hoffset
    have hslice := Text.slice?_append (pre ++ [' ']) (c :: cs)
    rw [List.append_assoc, List.singleton_append, Text.byteLength_append] at hslice
    have hblank : Text.byteLength [' '] = 1 := rfl
    rw [hblank] at hslice
    rw [remainder, Place.offset, hoffset, Option.getD_some, hslice, Option.getD_some,
      Text.trim_of_solid hsolid]

end StageScript

/-
# Blanks around the tokens

A line is trimmed by all blanks, and between its tokens only the ASCII blanks are passed over.  So
the others are tokens of their own where they are read, each a character outside the language
(`strays`).  Here is what becomes of a text behind or in front of blanks.

In front of a text, blanks add their own tokens and move those of the text (`lexFrom_between`,
`lexFrom_move`).  Behind a text they change none of its tokens, whatever stands behind them: a token
that goes on over a blank is a literal, and where a literal begins no other token does
(`Spelled.longest_before`).

A form that takes the rest of the line trims it.  Blanks behind the rest do not change it then
(`Text.trim_slice?_before_blanks`).
-/
import StageScript.Proofs.Token.Division

namespace StageScript

/-! ## 1. Other offsets -/

/-- The token, `d` bytes further on. -/
def Token.move (d : Nat) (t : Token) : Token := { t with offset := t.offset + d }

namespace Token

/-- The line, `d` bytes further on. -/
def Line.move (d : Nat) (l : Line) : Line := ⟨l.tokens.map (.move d), l.stop + d⟩

/-- The fault, `d` bytes further on. -/
def Fault.move (d : Nat) (f : Fault) : Fault := { f with offset := f.offset + d }

variable {c b : Char} {cs rest more : List Char} {k : Kind} {offset d : Nat}

theorem lexFrom_of_scan_error {f : Fault} (hc : Text.isAsciiBlank c = false)
    (hcomment : startsComment (c :: cs) = false) (hscan : scan c cs = .error f) :
    lexFrom offset (c :: cs) = .error ⟨f.cause, offset + f.offset⟩ := by
  rw [lexFrom, if_neg (by simp [hc]), if_neg (by simp [hcomment])]
  split
  · rename_i f' hf
    obtain rfl : f = f' := Except.error.inj (hscan.symm.trans hf)
    rfl
  · rename_i l hl
    rw [hscan] at hl
    simp at hl

/-- **A text is read further on as it is read here.** -/
theorem lexFrom_move (d offset : Nat) (cs : List Char) :
    lexFrom (offset + d) cs = ((lexFrom offset cs).mapError (.move d)).map (.move d) := by
  -- on the length: behind a token stands less than the text
  induction hn : cs.length using Nat.strongRecOn generalizing offset cs with
  | ind n ih =>
  subst hn
  cases cs with
  | nil =>
    rw [lexFrom, lexFrom]
    rfl
  | cons c cs =>
    cases hblank : Text.isAsciiBlank c with
    | true =>
      rw [lexFrom_blank hblank, lexFrom_blank hblank, Nat.add_right_comm]
      exact ih cs.length (by simp) _ cs rfl
    | false =>
      cases hcomment : startsComment (c :: cs) with
      | true =>
        have hstops (offset : Nat) : lexFrom offset (c :: cs) = .ok ⟨[], offset⟩ := by
          rw [lexFrom, if_neg (by simp [hblank]), if_pos hcomment]
        rw [hstops, hstops]
        rfl
      | false =>
        cases hscan : scan c cs with
        | error f =>
          rw [lexFrom_of_scan_error hblank hcomment hscan,
            lexFrom_of_scan_error hblank hcomment hscan, Nat.add_right_comm]
          rfl
        | ok l =>
          have hless : l.rest.length < (c :: cs).length :=
            Nat.lt_succ_of_le (rest_length_le_of_scan hscan)
          rw [lexFrom_of_scan hblank hcomment hscan, lexFrom_of_scan hblank hcomment hscan,
            Nat.add_right_comm, ih _ hless _ _ rfl]
          cases lexFrom (offset + l.size) l.rest <;> rfl

theorem lexFrom_eq_move (d : Nat) (cs : List Char) :
    lexFrom d cs = ((lexFrom 0 cs).mapError (.move d)).map (.move d) := by
  have hmove := lexFrom_move d 0 cs
  rwa [Nat.zero_add] at hmove

/-! ## 2. Blanks in front -/

/-- The blanks that are tokens. -/
def strays (offset : Nat) : List Char → List Token
  | [] => []
  | c :: cs =>
    if Text.isAsciiBlank c then strays (offset + c.utf8Size) cs
    else ⟨.stray (String.singleton c), offset⟩ :: strays (offset + c.utf8Size) cs

/-- No token begins with a blank, so a blank is passed over or a token of its own. -/
theorem isStray_of_isBlank (h : Text.isBlank c = true) (hascii : Text.isAsciiBlank c = false) :
    IsStray c := by
  have hne (p : Char → Bool) (hp : ∀ d, p d = true → isWordChar d = true) : p c = false := by
    rw [← Bool.not_eq_true]
    intro hc
    rw [(ne_of_isWordChar (hp c hc)).1] at h
    simp at h
  refine ⟨hascii, ?_, ?_, hne _ fun _ => isWordChar_of_isWordStart,
    hne _ fun _ => isWordChar_of_isDigit, ?_⟩
  · rintro rfl
    exact absurd h (by decide)
  · rintro rfl
    exact absurd h (by decide)
  · unfold Mark.ofChar?
    split
    case h_10 => rfl
    all_goals exact absurd h (by decide)

theorem isStray_of_mem_strays {t : Token} (ht : t ∈ strays offset cs) :
    ∃ c, t.kind = .stray c := by
  induction cs generalizing offset with
  | nil => simp [strays] at ht
  | cons c cs ih =>
    rw [strays] at ht
    split_ifs at ht
    · exact ih ht
    · rcases List.mem_cons.mp ht with rfl | ht
      · exact ⟨_, rfl⟩
      · exact ih ht

/-- **Blanks in front of a text.** -/
theorem lexFrom_between {blanks : List Char} (h : ∀ c ∈ blanks, Text.isBlank c = true)
    (offset : Nat) (cs : List Char) :
    lexFrom offset (blanks ++ cs) = (lexFrom (offset + Text.byteLength blanks) cs).map
      (Line.behind (strays offset blanks)) := by
  induction blanks generalizing offset with
  | nil =>
    rw [strays, List.nil_append, Text.byteLength_nil, Nat.add_zero]
    cases lexFrom offset cs <;> rfl
  | cons c blanks ih =>
    rw [List.forall_mem_cons] at h
    rw [List.cons_append, strays, Text.byteLength_cons, ← Nat.add_assoc]
    cases hascii : Text.isAsciiBlank c with
    | true =>
      rw [lexFrom_blank hascii, ← utf8Size_of_isAsciiBlank hascii, ih h.2, if_pos rfl]
    | false =>
      have hstray := isStray_of_isBlank h.1 hascii
      have hscan : Scans [c] (.stray (String.singleton c)) (blanks ++ cs) := by
        refine (Spelled.stray hstray).scans ?_ ?_
        · intro hcomment
          obtain rfl : '/' = c := (List.cons_prefix_cons.mp hcomment).1
          exact absurd h.1 (by decide)
        · intro pre k hpre hk
          obtain ⟨ds, rfl, -⟩ := hk.exists_cons hpre
          rw [(hk.of_isStray hstray).1]
      have hread := hscan offset
      rw [List.singleton_append] at hread
      rw [hread, if_neg (by simp), Text.byteLength_cons, Text.byteLength_nil, Nat.add_zero,
        ih h.2, map_behind_map]
      rfl

/-! ## 3. Blanks and comments behind -/

/-- Only a literal goes on over a character that is in no name and in no number. -/
theorem Spelled.eq_quote (h : Spelled (c :: cs) k) (hword : isWordChar b = false) (hpoint : b ≠ '.')
    (hmem : b ∈ cs) : c = '"' := by
  have hno (hall : ∀ d ∈ cs, isWordChar d = true ∨ d = '.') : c = '"' := by
    rcases hall b hmem with hb | hb
    · rw [hword] at hb
      exact absurd hb Bool.false_ne_true
    · exact absurd hb hpoint
  have hdecimal {ds : List Char} (hds : IsDecimal ds) (d : Char) (hd : d ∈ ds) :
      isWordChar d = true ∨ d = '.' :=
    (hds.isDigit_or_point d hd).imp_left isWordChar_of_isDigit
  cases h with
  | text => rfl
  | hex h => exact hno fun d hd => .inl (isWordChar_of_isAlphanum (h d hd))
  | word _ h => exact hno fun d hd => .inl (h d hd)
  | number h => exact hno fun d hd => hdecimal h d (List.mem_cons_of_mem c hd)
  | pointed h => exact hno (hdecimal h)
  | mark | stray => simp at hmem

/-- A literal is the only token where it begins. -/
theorem Spelled.longest_literal (h : Spelled ('"' :: cs) k) (rest : List Char) :
    ∀ pre k', pre <+: '"' :: cs ++ rest → Spelled pre k' → pre <+: '"' :: cs := by
  obtain ⟨inner, body, rfl, hinner, -⟩ := h.of_quote
  obtain ⟨span, htakes⟩ := takes_text (hinner.textBody 1 rest)
  have hliteral : '"' :: (inner ++ '"' :: rest) = '"' :: (inner ++ ['"']) ++ rest := by simp
  obtain rfl : '"' :: (inner ++ ['"']) = span :=
    List.append_cancel_right (hliteral.symm.trans htakes.text)
  rw [← hliteral]
  exact htakes.longest

/-- **A token stays the longest one** with a character behind what is behind it that is in no name
and in no number. -/
theorem Spelled.longest_before {span behind : List Char} (h : Spelled span k)
    (hlongest : ∀ pre k', pre <+: span ++ behind → Spelled pre k' → pre <+: span)
    (hword : isWordChar b = false) (hpoint : b ≠ '.') (more : List Char) :
    ∀ pre k', pre <+: span ++ (behind ++ b :: more) → Spelled pre k' → pre <+: span := by
  intro pre k' hpre hk
  rw [← List.append_assoc] at hpre
  rcases List.prefix_or_prefix_of_prefix hpre (List.prefix_append _ _) with hle | ⟨tail, rfl⟩
  · exact hlongest pre k' hle hk
  · cases tail with
    | nil => exact hlongest _ k' (by rw [List.append_nil]) hk
    | cons d tail =>
      -- the longer token goes on over `b`, so it is a literal, and so is the other one
      obtain rfl : d = b := by
        rw [List.prefix_append_right_inj, List.cons_prefix_cons] at hpre
        exact hpre.1
      obtain ⟨c, cs, rfl⟩ := List.exists_cons_of_ne_nil h.ne_nil
      obtain rfl : c = '"' := hk.eq_quote hword hpoint (by simp)
      exact h.longest_literal (behind ++ d :: tail) _ k' (by simp) hk

/-- A token is read in front of everything at which a token may end. -/
theorem Spells.of_spelled {cs : List Char} {k : Kind} (h : Spelled cs k)
    (hslash : k ≠ .mark .slash) : Spells cs [k] := by
  refine Spells.of_scans fun rest hrest => h.scans ?_ ?_
  · rintro ⟨tail, htail⟩
    obtain ⟨c, ds, rfl⟩ := List.exists_cons_of_ne_nil h.ne_nil
    obtain ⟨rfl, -⟩ := List.cons.inj htail
    rcases h.of_mark rfl with ⟨-, hk⟩ | ⟨hpoint, -⟩
    · exact hslash hk
    · exact absurd hpoint (by decide)
  · have halone (pre : List Char) (k' : Kind) (hpre : pre <+: cs ++ []) (_ : Spelled pre k') :
        pre <+: cs := by rwa [List.append_nil] at hpre
    cases rest with
    | nil => exact halone
    | cons b more =>
      have hb : (b = ' ' ∨ b = ',') ∨ b = ')' := by simpa [Breaks] using hrest
      refine h.longest_before halone ?_ ?_ more
      · rcases hb with (rfl | rfl) | rfl <;> rfl
      · rcases hb with (rfl | rfl) | rfl <;> decide

theorem Piece.Stands.before {p : Piece} {behind : List Char} (h : p.Stands behind)
    (hword : isWordChar b = false) (hpoint : b ≠ '.') {more : List Char}
    (hcomment : ¬ ['/', '/'] <+: p.span ++ (behind ++ b :: more)) :
    p.Stands (behind ++ b :: more) :=
  { h with
    comment := hcomment
    longest := h.spelled.longest_before h.longest hword hpoint more }

/-- Pieces in front of a blank. -/
theorem Piece.Stands.before_blank {p : Piece} {behind : List Char} (h : p.Stands behind)
    (hb : Text.isBlank b = true) (more : List Char) : p.Stands (behind ++ b :: more) := by
  refine h.before ?_ ?_ ?_
  · rw [← Bool.not_eq_true]
    intro hword
    rw [isBlank_of_isWordChar hword] at hb
    exact absurd hb Bool.false_ne_true
  · rintro rfl
    exact absurd hb (by decide)
  · rintro ⟨tail, htail⟩
    have hcomment := h.comment
    rw [← List.append_assoc] at htail
    rcases hspan : p.span ++ behind with _ | ⟨c, _ | ⟨d, cs⟩⟩
    · exact h.nonempty (List.append_eq_nil_iff.mp hspan).1
    · rw [hspan] at htail
      obtain ⟨-, rfl, -⟩ : _ ∧ '/' = b ∧ tail = more := by simpa using htail
      exact absurd hb (by decide)
    · rw [hspan] at htail hcomment
      obtain ⟨rfl, rfl, -⟩ : '/' = c ∧ '/' = d ∧ _ := by simpa using htail
      exact hcomment ⟨cs, rfl⟩

/-- Pieces in front of a comment, whatever is in it. -/
theorem Piece.Stands.before_comment {p : Piece} {behind comment : List Char}
    (h : p.Stands (behind ++ '/' :: '/' :: comment)) (more : List Char) :
    p.Stands (behind ++ '/' :: '/' :: (comment ++ more)) := by
  refine (h.mono (List.prefix_append behind _)).before (by decide) (by decide) fun hcomment => ?_
  refine h.comment (List.prefix_of_prefix_length_le hcomment ⟨more, by simp⟩ ?_)
  simp only [List.length_append, List.length_cons, List.length_nil]
  omega

/-- Where the tokens of a text stop, the text ends or a comment starts. -/
theorem Divides.rest_eq_nil_iff {pieces : List Piece} {blanks : List Char}
    (h : Divides cs pieces blanks rest) (offset : Nat) :
    offset + Text.byteLength (pieces.flatMap Piece.chars ++ blanks) = offset + Text.byteLength cs
      ↔ rest = [] := by
  have hlength : Text.byteLength cs
      = Text.byteLength (pieces.flatMap Piece.chars ++ blanks) + Text.byteLength rest := by
    rw [h.text, ← List.append_assoc, Text.byteLength_append]
  constructor
  · intro hstop
    by_contra hne
    have hpos := byteLength_pos hne
    omega
  · rintro rfl
    rw [hlength, Text.byteLength_nil, Nat.add_zero]

/-- The tokens of a text stop in it. -/
theorem stop_le_of_lexFrom {l : Line} (h : lexFrom 0 cs = .ok l) : l.stop ≤ Text.byteLength cs := by
  obtain ⟨pieces, blanks, rest, hdivides, rfl⟩ := exists_divides h
  have hlength := congrArg Text.byteLength hdivides.text
  simp only [Text.byteLength_append] at hlength ⊢
  omega

/-- **A text without a comment in front of a blank.** -/
theorem lexFrom_before_blank {l : Line} (h : lexFrom offset cs = .ok l)
    (hstop : l.stop = offset + Text.byteLength cs) (hb : Text.isBlank b = true)
    (more : List Char) :
    lexFrom offset (cs ++ b :: more)
      = (lexFrom (offset + Text.byteLength cs) (b :: more)).map (Line.behind l.tokens) := by
  obtain ⟨pieces, blanks, rest, hdivides, rfl⟩ := exists_divides h
  obtain rfl := (hdivides.rest_eq_nil_iff offset).mp hstop
  have hstands (before : List Piece) (p : Piece) (after : List Piece)
      (heq : pieces = before ++ p :: after) :
      p.Stands (after.flatMap Piece.chars ++ (blanks ++ b :: more)) := by
    have hbefore := (hdivides.stands before p after heq).before_blank hb more
    rwa [List.append_nil, List.append_assoc] at hbefore
  have htext := hdivides.text
  rw [List.append_nil] at htext
  rw [htext, List.append_assoc, lexFrom_pieces hstands, lexFrom_blanks hdivides.blank,
    Text.byteLength_append, Nat.add_assoc]

/-- **A text with a comment in front of anything.** -/
theorem lexFrom_before_comment {l : Line} (h : lexFrom offset cs = .ok l)
    (hstop : l.stop ≠ offset + Text.byteLength cs) (more : List Char) :
    lexFrom offset (cs ++ more) = .ok l := by
  obtain ⟨pieces, blanks, rest, hdivides, rfl⟩ := exists_divides h
  rcases hdivides.ending with rfl | ⟨comment, rfl⟩
  · exact absurd ((hdivides.rest_eq_nil_iff offset).mpr rfl) hstop
  have hmore : Divides (cs ++ more) pieces blanks ('/' :: '/' :: (comment ++ more)) :=
    { text := by rw [hdivides.text]; simp
      blank := hdivides.blank
      ending := .inr (List.prefix_append ['/', '/'] _)
      stands := fun before p after heq => by
        have hstands := hdivides.stands before p after heq
        rw [← List.append_assoc] at hstands ⊢
        exact hstands.before_comment more }
  exact hmore.lexFrom offset

end Token

/-! ## 4. Trimmed texts -/

namespace Text

variable {cs blanks : List Char}

/-- The blanks in front of a text. -/
def blanksBefore (cs : List Char) : List Char := cs.takeWhile isBlank

/-- The blanks behind a text. -/
def blanksBehind (cs : List Char) : List Char := (cs.reverse.takeWhile isBlank).reverse

theorem isBlank_of_mem_blanksBefore {c : Char} (hc : c ∈ blanksBefore cs) : isBlank c = true :=
  List.mem_takeWhile_imp hc

theorem isBlank_of_mem_blanksBehind {c : Char} (hc : c ∈ blanksBehind cs) : isBlank c = true :=
  List.mem_takeWhile_imp (List.mem_reverse.mp hc)

theorem trim_eq_nil (h : ∀ c ∈ cs, isBlank c = true) : trim cs = [] := by
  have hleft : trimLeft cs = [] := List.dropWhile_eq_nil_iff.mpr h
  rw [trim, hleft]
  rfl

/-- What is trimmed off around a solid text are the blanks there. -/
theorem trim_between {before behind : List Char} (h : Solid cs)
    (hbefore : ∀ c ∈ before, isBlank c = true) (hbehind : ∀ c ∈ behind, isBlank c = true) :
    trim (before ++ (cs ++ behind)) = cs := by
  have hleft : trimLeft (before ++ (cs ++ behind)) = trimLeft (cs ++ behind) :=
    List.dropWhile_append_of_pos hbefore
  rw [trim, hleft]
  exact trim_append_of_solid h hbehind

/-- **A text has nothing but blanks, or it is its trimmed self between its blanks.** -/
theorem eq_trim (cs : List Char) : (∀ c ∈ cs, isBlank c = true)
    ∨ Solid (trim cs) ∧ cs = blanksBefore cs ++ (trim cs ++ blanksBehind cs) := by
  have hsplit : cs = blanksBefore cs ++ cs.dropWhile isBlank :=
    List.takeWhile_append_dropWhile.symm
  obtain ⟨kept, behind, hkept, hbehind, hlast⟩ := exists_blanks_behind (cs.dropWhile isBlank)
  have hhead := List.head?_dropWhile_not isBlank cs
  rw [hkept] at hhead
  by_cases hnil : kept = []
  · left
    -- the first character behind the blanks would be a blank
    rw [hnil, List.nil_append] at hkept hhead
    have hempty : cs.dropWhile isBlank = [] := by
      cases behind with
      | nil => exact hkept
      | cons c behind => simp [hbehind c List.mem_cons_self] at hhead
    exact List.dropWhile_eq_nil_iff.mp hempty
  · right
    have hsolid : Solid kept := by
      rw [List.head?_append_of_ne_nil _ hnil, List.head?_eq_some_head hnil] at hhead
      rw [List.getLast?_eq_some_getLast hnil] at hlast
      refine ⟨?_, ?_⟩
      · rw [List.head?_eq_some_head hnil]
        simpa using hhead
      · rw [List.getLast?_eq_some_getLast hnil]
        exact hlast
    have htrim : trim cs = kept := by
      rw [hsplit, hkept]
      exact trim_between hsolid (fun c hc => isBlank_of_mem_blanksBefore hc) hbehind
    have hbehind' : blanksBehind cs = behind := by
      have hreverse : ∀ c ∈ behind.reverse, isBlank c = true :=
        fun c hc => hbehind c (List.mem_reverse.mp hc)
      have hnone : (kept.reverse ++ (blanksBefore cs).reverse).takeWhile isBlank = [] := by
        obtain ⟨init, last, rfl⟩ : ∃ init last, kept = init ++ [last] :=
          ⟨_, _, (List.dropLast_append_getLast hnil).symm⟩
        have hlast' : isBlank last = false := by simpa using hlast
        simp [hlast']
      rw [blanksBehind, hsplit, hkept, List.reverse_append, List.reverse_append, List.append_assoc,
        List.takeWhile_append_of_pos hreverse, hnone, List.append_nil, List.reverse_reverse]
    refine ⟨htrim ▸ hsolid, ?_⟩
    rw [htrim, hbehind', ← hkept]
    exact hsplit

/-- What is trimmed off a text does not depend on the blanks behind it. -/
theorem trim_append_blanks (h : ∀ c ∈ blanks, isBlank c = true) :
    trim (cs ++ blanks) = trim cs := by
  rcases eq_trim cs with hcs | ⟨hsolid, hcs⟩
  · rw [trim_eq_nil hcs, trim_eq_nil]
    intro c hc
    exact (List.mem_append.mp hc).elim (hcs c) (h c)
  · conv_lhs => rw [hcs, List.append_assoc, List.append_assoc]
    refine trim_between hsolid (fun c hc => isBlank_of_mem_blanksBefore hc) fun c hc => ?_
    exact (List.mem_append.mp hc).elim isBlank_of_mem_blanksBehind (h c)

end Text

/-! ## 5. The end of a text -/

namespace Text

variable {cs blanks : List Char}

theorem dropBytes?_zero (cs : List Char) : dropBytes? 0 cs = some cs := by cases cs <;> rfl

theorem takeBytes?_zero (cs : List Char) : takeBytes? 0 cs = some [] := by cases cs <;> rfl

theorem suffix_of_dropBytes? {n : Nat} {rest : List Char} (h : dropBytes? n cs = some rest) :
    rest <:+ cs := by
  fun_induction dropBytes? n cs with
  | case1 cs => rw [Option.some.inj h]
  | case2 => simp at h
  | case3 n c cs hc ih => exact (ih h).trans (List.suffix_cons c cs)
  | case4 => simp at h

theorem dropBytes?_append_right {n : Nat} (h : n ≤ byteLength cs) (rest : List Char) :
    dropBytes? n (cs ++ rest) = (dropBytes? n cs).map (· ++ rest) := by
  fun_induction dropBytes? n cs with
  | case1 cs => rw [dropBytes?_zero]; rfl
  | case2 => simp at h
  | case3 n c cs hc ih =>
    rw [List.cons_append, dropBytes?, if_pos hc, ih]
    rw [byteLength_cons] at h
    omega
  | case4 n c cs hc => rw [List.cons_append, dropBytes?, if_neg hc]; rfl

theorem takeBytes?_append_right {n : Nat} (h : n ≤ byteLength cs) (rest : List Char) :
    takeBytes? n (cs ++ rest) = takeBytes? n cs := by
  fun_induction takeBytes? n cs with
  | case1 cs => rw [takeBytes?_zero]
  | case2 => simp at h
  | case3 n c cs hc ih =>
    rw [List.cons_append, takeBytes?, if_pos hc, ih]
    rw [byteLength_cons] at h
    omega
  | case4 n c cs hc => rw [List.cons_append, takeBytes?, if_neg hc]

/-- A part of a text is not changed by what is behind the text. -/
theorem slice?_append_right {hi : Nat} (h : hi ≤ byteLength cs) (lo : Nat) (rest : List Char) :
    slice? (cs ++ rest) lo hi = slice? cs lo hi := by
  unfold slice?
  split_ifs with hle
  · rw [dropBytes?_append_right (hle.trans h)]
    cases hdrop : dropBytes? lo cs with
    | none => rfl
    | some kept =>
      have hlength := byteLength_of_dropBytes? hdrop
      exact takeBytes?_append_right (by omega) rest
  · rfl

/-- The end of a text is what is left of it behind its first bytes. -/
theorem slice?_to_end (cs : List Char) (lo : Nat) :
    slice? cs lo (byteLength cs) = dropBytes? lo cs := by
  unfold slice?
  cases hdrop : dropBytes? lo cs with
  | none => split_ifs <;> rfl
  | some kept =>
    have hlength := byteLength_of_dropBytes? hdrop
    have hall := takeBytes?_append kept []
    rw [List.append_nil] at hall
    rw [if_pos (by omega), hlength, Nat.add_sub_cancel_left]
    exact hall

theorem dropBytes?_of_le {n : Nat} (h : byteLength cs ≤ n) : (dropBytes? n cs).getD [] = [] := by
  cases hdrop : dropBytes? n cs with
  | none => rfl
  | some rest =>
    have hlength := byteLength_of_dropBytes? hdrop
    by_contra hne
    have hpos : 0 < byteLength rest := Token.byteLength_pos hne
    omega

/-- Blanks behind a text are not in what is trimmed of its end. -/
theorem trim_dropBytes?_append (h : ∀ c ∈ blanks, isBlank c = true) (n : Nat) (cs : List Char) :
    trim ((dropBytes? n (cs ++ blanks)).getD []) = trim ((dropBytes? n cs).getD []) := by
  fun_induction dropBytes? n cs with
  | case1 cs =>
    rw [dropBytes?_zero]
    exact trim_append_blanks h
  | case2 n =>
    rw [List.nil_append]
    cases hdrop : dropBytes? (n + 1) blanks with
    | none => rfl
    | some kept =>
      exact trim_eq_nil fun c hc => h c ((suffix_of_dropBytes? hdrop).subset hc)
  | case3 n c cs hc ih => rw [List.cons_append, dropBytes?, if_pos hc, ih]
  | case4 n c cs hc => rw [List.cons_append, dropBytes?, if_neg hc]

/-- **The end of a text, trimmed,** is the same with blanks behind the text, and with anything
behind these. -/
theorem trim_slice?_before_blanks (h : ∀ c ∈ blanks, isBlank c = true) (cs rest : List Char)
    (lo : Nat) :
    trim ((slice? (cs ++ (blanks ++ rest)) lo (byteLength cs + byteLength blanks)).getD [])
      = trim ((slice? cs lo (byteLength cs)).getD []) := by
  have hlength : byteLength cs + byteLength blanks = byteLength (cs ++ blanks) :=
    (byteLength_append cs blanks).symm
  rw [hlength, ← List.append_assoc, slice?_append_right (Nat.le_refl _), slice?_to_end,
    slice?_to_end, trim_dropBytes?_append h]

end Text

namespace Command

/-- Nothing is left at the end of a line. -/
theorem remainder_nil (src : List Char) (p : Place) : remainder src p [] = [] := by
  have hstop : p.offset [] = p.stop := rfl
  rw [remainder, hstop, Text.slice?, if_pos (Nat.le_refl _), Nat.sub_self]
  cases Text.dropBytes? p.stop src with
  | none => rfl
  | some rest => rw [Option.bind_some, Text.takeBytes?_zero]; rfl

/-- A line that is a command is its trimmed text between blanks. -/
theorem ofText_of_ofLine? {line : Nat} {text : List Char} {c : Command}
    (h : ofLine? line text = some (.ok c)) : Text.Solid (Text.trim text)
    ∧ text = Text.blanksBefore text ++ (Text.trim text ++ Text.blanksBehind text)
    ∧ ofText line 0 (Text.trim text) = .ok c := by
  rcases Text.eq_trim text with hblank | ⟨hsolid, htext⟩
  · simp [ofLine?, Text.trim_eq_nil hblank] at h
  · refine ⟨hsolid, htext, ?_⟩
    simp only [ofLine?] at h
    split_ifs at h
    exact Option.some.inj h

end Command
end StageScript

/-
# Text literals

A literal is read in both directions.  Every text, escaped and put between quotes, is read as one
token with just this text; and the text of every token that a line has is what the span of the
token stands for, each plain character as itself and each escape as its one character.

The reading is by characters, while the bytes of a line are what a program holds.  `bytesBody` reads
the inside of a literal byte by byte, without looking at where a character begins or ends, and
comes to the same (`bytesBody_bytes`): the bytes of a quote and of a backslash are below 128, the
bytes of a character that takes more than one are not.  So what it collects is the UTF-8 of a text,
and decoding it replaces nothing.
-/
import StageScript.Proofs.Token.Coverage

namespace StageScript

/-! ## 1. The bytes of a character -/

namespace Text

/-- A text in UTF-8. -/
def bytes (cs : List Char) : List UInt8 := cs.flatMap String.utf8EncodeChar

theorem bytes_cons (c : Char) (cs : List Char) :
    bytes (c :: cs) = String.utf8EncodeChar c ++ bytes cs := List.flatMap_cons

/-- **The bytes of a text are decoded to the text.** -/
theorem fromUTF8?_bytes (s : String) :
    String.fromUTF8? (bytes s.toList).toByteArray = some s := by
  have hbytes : (bytes s.toList).toByteArray = s.toByteArray := by
    rw [← s.utf8Encode_toList]
    rfl
  rw [hbytes, String.fromUTF8?, dif_pos s.isValidUTF8]
  rfl

variable {c : Char}

/-- A character of one byte is its byte. -/
theorem utf8EncodeChar_of_lt (h : c.toNat < 128) :
    String.utf8EncodeChar c = [UInt8.ofNat c.toNat] :=
  if_pos (Nat.le_of_lt_succ h)

theorem toNat_byte {n : Nat} (h : n < 256) : (UInt8.ofNat n).toNat = n :=
  UInt8.toNat_ofNat_of_lt' h

/-- A continuation byte, and the first byte of a longer character. -/
theorem le_toNat_byte {n low : Nat} (hlow : 128 ≤ low) (h : n + low < 256) :
    128 ≤ (UInt8.ofNat (n + low)).toNat := by
  rw [toNat_byte h]
  omega

/-- No byte of a longer character is the byte of a shorter one. -/
theorem le_of_mem_utf8EncodeChar (h : 128 ≤ c.toNat) :
    ∀ b ∈ String.utf8EncodeChar c, 128 ≤ b.toNat := by
  have hc : c.toNat = c.val.toNat := rfl
  unfold String.utf8EncodeChar
  dsimp only
  rw [if_neg (by omega)]
  split_ifs
  all_goals
    simp only [List.forall_mem_cons, List.not_mem_nil, false_implies, implies_true, and_true]
    refine ⟨le_toNat_byte (by decide) (by omega), ?_⟩
  · exact le_toNat_byte (by decide) (by omega)
  · exact ⟨le_toNat_byte (by decide) (by omega), le_toNat_byte (by decide) (by omega)⟩
  · exact ⟨le_toNat_byte (by decide) (by omega), le_toNat_byte (by decide) (by omega),
      le_toNat_byte (by decide) (by omega)⟩

/-- The first byte of a character, which a message about an escape shows. -/
theorem exists_utf8EncodeChar (c : Char) :
    ∃ b more, String.utf8EncodeChar c = b :: more ∧ b.toNat = leadByte c := by
  have hc : c.toNat = c.val.toNat := rfl
  have hlt : c.val.toNat < 0x110000 := by
    rcases c.valid with h | ⟨-, h⟩
    · exact Nat.lt_trans h (by decide)
    · exact h
  unfold leadByte String.utf8EncodeChar
  dsimp only
  split_ifs
  all_goals first
    | omega
    | exact ⟨_, _, rfl, by rw [toNat_byte (by omega)]; omega⟩

end Text

/-! ## 2. The inside of a literal, byte by byte -/

namespace Token

/-- The byte that an escape stands for. -/
def unescapeByte? (b : UInt8) : Option UInt8 :=
  if b = 0x6e then some 0x0a
  else if b = 0x74 then some 0x09
  else if b = 0x22 then some 0x22
  else if b = 0x5c then some 0x5c
  else none

/-- The bytes of the inside of a literal, how many bytes were read, and the bytes behind the
closing quote. -/
def bytesBody (size : Nat) : List UInt8 → Except Fault (List UInt8 × Nat × List UInt8)
  | [] => .error ⟨.unterminatedText, 0⟩
  | b :: bs =>
    if b = 0x22 then .ok ([], size + 1, bs)
    else if b = 0x5c then
      match bs with
      | [] => .error ⟨.unterminatedText, 0⟩
      | e :: bs =>
        match unescapeByte? e with
        | none => .error ⟨.unknownEscape e.toNat, size + 1⟩
        | some d => (bytesBody (size + 2) bs).map fun (body, n, rest) => (d :: body, n, rest)
    else (bytesBody (size + 1) bs).map fun (body, n, rest) => (b :: body, n, rest)

open Text (bytes bytes_cons)

/-- Bytes that neither close the literal nor begin an escape are taken as they are. -/
theorem bytesBody_append {bs : List UInt8} (h : ∀ b ∈ bs, b ≠ 0x22 ∧ b ≠ 0x5c) (size : Nat)
    (rest : List UInt8) :
    bytesBody size (bs ++ rest)
      = (bytesBody (size + bs.length) rest).map fun (body, n, rest) => (bs ++ body, n, rest) := by
  induction bs generalizing size with
  | nil => cases hrest : bytesBody size rest <;> simp [Except.map, hrest]
  | cons b bs ih =>
    rw [List.forall_mem_cons] at h
    rw [List.cons_append, bytesBody.eq_def]
    simp only [if_neg h.1.1, if_neg h.1.2]
    rw [ih h.2, List.length_cons, Nat.add_assoc, Nat.add_comm 1]
    cases bytesBody (size + (bs.length + 1)) rest <;> rfl

/-- A character that is neither a quote nor a backslash has no byte of either. -/
theorem ne_of_mem_utf8EncodeChar {c : Char} (hquote : c ≠ '"') (hslash : c ≠ '\\') :
    ∀ b ∈ String.utf8EncodeChar c, b ≠ 0x22 ∧ b ≠ 0x5c := by
  intro b hb
  by_cases hc : c.toNat < 128
  · rw [Text.utf8EncodeChar_of_lt hc, List.mem_singleton] at hb
    have hnat : b.toNat = c.toNat := by rw [hb, Text.toNat_byte (by omega)]
    constructor
    · rintro rfl
      exact hquote (Char.toNat_inj.mp hnat.symm)
    · rintro rfl
      exact hslash (Char.toNat_inj.mp hnat.symm)
  · have hle := Text.le_of_mem_utf8EncodeChar (Nat.not_lt.mp hc) b hb
    constructor
    · rintro rfl
      exact absurd hle (by decide)
    · rintro rfl
      exact absurd hle (by decide)

/-- The first byte of a character tells a character of one byte from all others. -/
theorem eq_of_leadByte {e d : Char} (hd : d.toNat < 128) (h : Text.leadByte e = d.toNat) :
    e = d := by
  unfold Text.leadByte at h
  dsimp only at h
  refine Char.toNat_inj.mp ?_
  split_ifs at h <;> omega

/-- What is no escape is none as a byte either. -/
theorem unescapeByte?_eq_none {e : Char} {b : UInt8} (hb : b.toNat = Text.leadByte e)
    (h : unescape? e = none) : unescapeByte? b = none := by
  have hne (d : Char) (hd : d.toNat < 128) (hsome : unescape? d ≠ none) : b.toNat ≠ d.toNat := by
    intro heq
    rw [eq_of_leadByte hd (hb.symm.trans heq)] at h
    exact hsome h
  unfold unescapeByte?
  rw [if_neg, if_neg, if_neg, if_neg]
  · rintro rfl
    exact hne '\\' (by decide) (by simp [unescape?]) rfl
  · rintro rfl
    exact hne '"' (by decide) (by simp [unescape?]) rfl
  · rintro rfl
    exact hne 't' (by decide) (by simp [unescape?]) rfl
  · rintro rfl
    exact hne 'n' (by decide) (by simp [unescape?]) rfl

/-- An escape is one byte, and stands for one. -/
theorem bytesBody_escape {e d : Char} (h : unescape? e = some d) (size : Nat) (cs : List Char) :
    bytesBody size (bytes ('\\' :: e :: cs))
      = (bytesBody (size + 2) (bytes cs)).map
          fun (body, n, rest) => (String.utf8EncodeChar d ++ body, n, rest) := by
  unfold unescape? at h
  split at h
  case h_5 => simp at h
  all_goals
    obtain rfl := Option.some.inj h
    rfl

/-- **A literal may be read byte by byte.**  The bytes of the text, how many were read, what is
behind the closing quote, and the fault are those of the reading by characters. -/
theorem bytesBody_bytes (size : Nat) (cs : List Char) :
    bytesBody size (bytes cs)
      = (textBody size cs).map fun (body, n, rest) => (bytes body, n, bytes rest) := by
  fun_induction textBody size cs with
  | case1 => rfl
  | case2 size cs =>
    rw [bytes_cons, bytesBody.eq_def]
    rfl
  | case3 size => rfl
  | case4 size e cs hescape =>
    obtain ⟨b, more, hmore, hlead⟩ := Text.exists_utf8EncodeChar e
    have hbytes : bytes ('\\' :: e :: cs) = 0x5c :: b :: (more ++ bytes cs) := by
      rw [bytes_cons, bytes_cons, hmore]
      rfl
    rw [hbytes, bytesBody.eq_def]
    simp only [unescapeByte?_eq_none hlead hescape, hlead]
    rfl
  | case5 size e cs d hescape _ ih =>
    rw [bytesBody_escape hescape, ih]
    cases textBody (size + 2) cs <;> rfl
  | case6 size c cs hquote hslash ih =>
    rw [bytes_cons, bytesBody_append (ne_of_mem_utf8EncodeChar hquote hslash),
      String.length_utf8EncodeChar, ih]
    cases textBody (size + c.utf8Size) cs <;> rfl

/-! ## 3. Literals and their texts -/

/-- The token of a literal has the literal as its span, and the text that the literal stands for. -/
theorem exists_inner {cs : List Char} {l : Line} {before behind : List Token} {t : Token}
    {s : String} (h : lexFrom 0 cs = .ok l) (htokens : l.tokens = before ++ t :: behind)
    (ht : t.kind = .text s) :
    ∃ pre inner post, cs = pre ++ '"' :: (inner ++ '"' :: post)
      ∧ t.offset = Text.byteLength pre
      ∧ lexFrom (t.offset + Text.byteLength inner + 2) post = .ok ⟨behind, l.stop⟩
      ∧ Unescapes inner s.toList := by
  obtain ⟨pre, span, post, rfl, hoffset, hspelled, -, hbehind⟩ := exists_span h htokens
  rw [ht] at hspelled
  cases hspelled with
  | @text inner body hinner =>
    rw [String.toList_ofList]
    refine ⟨pre, inner, post, by simp, by rw [hoffset, Nat.zero_add], ?_, hinner⟩
    have hsize : Text.byteLength ('"' :: (inner ++ ['"'])) = Text.byteLength inner + 2 := by
      have hquote : ('"' : Char).utf8Size = 1 := rfl
      rw [Text.byteLength_cons, Text.byteLength_append, Text.byteLength_cons, Text.byteLength_nil,
        hquote]
      omega
    rwa [hsize, ← Nat.add_assoc] at hbehind

/-- **Literals and texts correspond.**  Every text, escaped and quoted, is read as one token with
this text and nothing behind it.  Every token with a text stands where a literal stands, the
reading goes on behind its closing quote, and the text is what the inside of the literal stands
for, and nothing else; byte by byte the same text is read, in UTF-8 that is decoded without
replacing anything. -/
theorem literals_are_read_back (line base : Nat) :
    (∀ s : String, lex line base (literal s).toList
        = .ok ⟨[⟨.text s, 0⟩], Text.byteLength (literal s).toList⟩)
      ∧ ∀ (cs : List Char) (l : Line) (before behind : List Token) (t : Token) (s : String),
          lex line base cs = .ok l → l.tokens = before ++ t :: behind → t.kind = .text s →
          ∃ pre inner post, cs = pre ++ '"' :: (inner ++ '"' :: post)
            ∧ t.offset = Text.byteLength pre
            ∧ lexFrom (t.offset + Text.byteLength inner + 2) post = .ok ⟨behind, l.stop⟩
            ∧ Unescapes inner s.toList
            ∧ (∀ body, Unescapes inner body → body = s.toList)
            ∧ bytesBody 1 (bytes (inner ++ '"' :: post))
                = .ok (bytes s.toList, Text.byteLength inner + 2, bytes post)
            ∧ String.fromUTF8? (bytes s.toList).toByteArray = some s := by
  constructor
  · intro s
    have hread := scans_literal s [] 0
    rw [List.append_nil] at hread
    rw [lex, hread, lexFrom, Nat.zero_add]
    rfl
  · intro cs l before behind t s hlex htokens ht
    obtain ⟨pre, inner, post, htext, hoffset, hbehind, hinner⟩ :=
      exists_inner (lex_eq_ok_iff.mp hlex) htokens ht
    refine ⟨pre, inner, post, htext, hoffset, hbehind, hinner, ?_, ?_, Text.fromUTF8?_bytes s⟩
    · intro body hbody
      exact (hinner.unique hbody (rfl : inner ++ '"' :: [] = inner ++ '"' :: [])).2
    · rw [bytesBody_bytes, hinner.textBody, Nat.add_comm 1, Nat.add_assoc]
      rfl

/-- A literal with two escapes beside a character of two bytes, and a word right behind it. -/
def escapedLine : List Char := ['"', '\\', '"', 'é', '\\', 'n', '"', 'x']

theorem lex_escapedLine :
    lex 1 0 escapedLine = .ok ⟨[⟨.text "\"é\n", 0⟩, ⟨.word "x", 8⟩], 9⟩ := by
  have htext : scan '"' ['\\', '"', 'é', '\\', 'n', '"', 'x'] = .ok ⟨.text "\"é\n", 8, ['x']⟩ := rfl
  have hword : scan 'x' [] = .ok ⟨.word "x", 1, []⟩ := rfl
  rw [lex, escapedLine, lexFrom_of_scan rfl rfl htext]
  dsimp only
  rw [lexFrom_of_scan rfl rfl hword, lexFrom]
  rfl

theorem literals_are_read_back_escapedLine :
    ∃ pre inner post, escapedLine = pre ++ '"' :: (inner ++ '"' :: post)
      ∧ Text.byteLength pre = 0
      ∧ lexFrom (Text.byteLength inner + 2) post = .ok ⟨[⟨.word "x", 8⟩], 9⟩
      ∧ Unescapes inner ['"', 'é', '\n'] := by
  obtain ⟨pre, inner, post, htext, hoffset, hbehind, hinner, -⟩ :=
    (literals_are_read_back 1 0).2 escapedLine _ [] _ _ _ lex_escapedLine rfl rfl
  refine ⟨pre, inner, post, htext, hoffset.symm, ?_, hinner⟩
  rwa [Nat.zero_add] at hbehind

end Token
end StageScript

/-
# From a line to its tokens

Tokens are read from the left, each one as long as its rule allows.  Between them stand ASCII
blanks; a `//` between two tokens starts a comment, which ends the line.  Offsets count bytes.

Every read leaves less than there was (`rest_length_le_of_scan`), so the reading of a line
ends without a bound on its length.
-/
import StageScript.Decimal.Reading
import StageScript.SyntaxError
import StageScript.Text.Blank
import StageScript.Text.Bytes

namespace StageScript
namespace Token

/-! ## 1. One token -/

/-- A token's kind, the bytes it spans, and the text behind it. -/
structure Lexeme where
  kind : Kind
  size : Nat
  rest : List Char

/-- A fault, at a byte counted from where the reading began. -/
structure Fault where
  cause : SyntaxError.Cause
  offset : Nat

/-- A character of a name behind its first one. -/
def isWordChar (c : Char) : Bool := c.isAlphanum || c == '_'

/-- The first character of a name. -/
def isWordStart (c : Char) : Bool := c.isAlpha || c == '_'

/-- The span of a number: digits, and a point with the digits behind it.  A point without a
digit behind it stays, since it may lead to a property. -/
def numberSpan (cs : List Char) : List Char × List Char :=
  let whole := cs.takeWhile Char.isDigit
  match cs.dropWhile Char.isDigit with
  | '.' :: d :: more =>
    if d.isDigit then
      (whole ++ '.' :: (d :: more).takeWhile Char.isDigit, (d :: more).dropWhile Char.isDigit)
    else (whole, '.' :: d :: more)
  | rest => (whole, rest)

/-- The number that a span denotes; a span that denotes none counts as zero. -/
def numberValue (span : List Char) : Float := (Decimal.read? span).getD 0

/-- The character that an escape stands for. -/
def unescape? : Char → Option Char
  | 'n' => some '\n'
  | 't' => some '\t'
  | '"' => some '"'
  | '\\' => some '\\'
  | _ => none

/-- The inside of a quoted text, the bytes up to and with the closing quote, and the text behind
it.  `size` is the number of bytes read before. -/
def textBody (size : Nat) : List Char → Except Fault (List Char × Nat × List Char)
  | [] => .error ⟨.unterminatedText, 0⟩
  | c :: cs =>
    if c = '"' then .ok ([], size + 1, cs)
    else if c = '\\' then
      match cs with
      | [] => .error ⟨.unterminatedText, 0⟩
      | e :: cs =>
        match unescape? e with
        | none => .error ⟨.unknownEscape (Text.leadByte e), size + 1⟩
        | some d => (textBody (size + 2) cs).map fun (body, n, rest) => (d :: body, n, rest)
    else (textBody (size + c.utf8Size) cs).map fun (body, n, rest) => (c :: body, n, rest)

/-- Reads the token that starts with `c`. -/
def scan (c : Char) (cs : List Char) : Except Fault Lexeme :=
  if c = '"' then
    (textBody 1 cs).map fun (body, size, rest) => ⟨.text (String.ofList body), size, rest⟩
  else if c = '#' then
    let span := c :: cs.takeWhile Char.isAlphanum
    .ok ⟨.hex (String.ofList span), span.length, cs.dropWhile Char.isAlphanum⟩
  else if isWordStart c then
    let span := c :: cs.takeWhile isWordChar
    .ok ⟨.word (String.ofList span), span.length, cs.dropWhile isWordChar⟩
  else if c.isDigit then
    let (span, rest) := numberSpan (c :: cs)
    .ok ⟨.number (numberValue span), span.length, rest⟩
  else if c = '.' ∧ (cs.head?.any Char.isDigit) then
    let (span, rest) := numberSpan cs
    .ok ⟨.number (numberValue ('.' :: span)), span.length + 1, rest⟩
  else
    match Mark.ofChar? c with
    | some m => .ok ⟨.mark m, 1, cs⟩
    | none => .ok ⟨.stray (String.singleton c), c.utf8Size, cs⟩

/-! ## 2. Every token takes something -/

theorem numberSpan_rest_length_le (cs : List Char) :
    (numberSpan cs).2.length ≤ (cs.dropWhile Char.isDigit).length := by
  unfold numberSpan
  split
  · rename_i d more heq
    split
    · rw [heq]
      have := (List.dropWhile_sublist (l := d :: more) Char.isDigit).length_le
      simp only [List.length_cons] at *
      omega
    · exact Nat.le_of_eq (congrArg List.length heq.symm)
  · exact Nat.le_refl _

theorem textBody_rest_length_le {size : Nat} {cs body rest : List Char} {n : Nat}
    (h : textBody size cs = .ok (body, n, rest)) : rest.length ≤ cs.length := by
  fun_induction textBody size cs generalizing body n rest with
  | case1 => simp at h
  | case2 => simp_all
  | case3 => simp at h
  | case4 => simp at h
  | case5 size e cs d _ _ ih =>
    cases hb : textBody (size + 2) cs with
    | error f => simp [hb, Except.map] at h
    | ok r =>
      obtain ⟨b, k, r⟩ := r
      simp only [hb, Except.map, Except.ok.injEq, Prod.mk.injEq] at h
      have := ih hb
      rw [← h.2.2]
      simp only [List.length_cons]
      omega
  | case6 size c cs _ _ ih =>
    cases hb : textBody (size + c.utf8Size) cs with
    | error f => simp [hb, Except.map] at h
    | ok r =>
      obtain ⟨b, k, r⟩ := r
      simp only [hb, Except.map, Except.ok.injEq, Prod.mk.injEq] at h
      have := ih hb
      rw [← h.2.2]
      simp only [List.length_cons]
      omega

/-- **A token takes at least its first character.** -/
theorem rest_length_le_of_scan {c : Char} {cs : List Char} {l : Lexeme}
    (h : scan c cs = .ok l) : l.rest.length ≤ cs.length := by
  have drop (p : Char → Bool) : (cs.dropWhile p).length ≤ cs.length :=
    (List.dropWhile_sublist p).length_le
  unfold scan at h
  split at h
  · cases hb : textBody 1 cs with
    | error f => simp [hb, Except.map] at h
    | ok r =>
      obtain ⟨b, k, r⟩ := r
      simp only [hb, Except.map, Except.ok.injEq] at h
      rw [← h]
      exact textBody_rest_length_le hb
  · split at h
    · cases h
      exact drop _
    · split at h
      · cases h
        exact drop _
      · split at h
        · rename_i hd
          cases h
          refine Nat.le_trans (numberSpan_rest_length_le _) ?_
          simp only [List.dropWhile_cons, hd, if_true]
          exact drop _
        · split at h
          · cases h
            exact Nat.le_trans (numberSpan_rest_length_le _) (drop _)
          · split at h <;> cases h <;> exact Nat.le_refl _

/-! ## 3. A line -/

/-- The tokens of a line, and the byte at which they stop: where a comment starts, or the end
of the text. -/
structure Line where
  tokens : List Token
  stop : Nat

/-- A comment starts here. -/
def startsComment : List Char → Bool
  | '/' :: '/' :: _ => true
  | _ => false

/-- The tokens of a text that follows `offset` bytes. -/
def lexFrom (offset : Nat) : List Char → Except Fault Line
  | [] => .ok ⟨[], offset⟩
  | c :: cs =>
    if Text.isAsciiBlank c then lexFrom (offset + 1) cs
    else if startsComment (c :: cs) then .ok ⟨[], offset⟩
    else
      match _read : scan c cs with
      | .error f => .error ⟨f.cause, offset + f.offset⟩
      | .ok l =>
        match lexFrom (offset + l.size) l.rest with
        | .error f => .error f
        | .ok line => .ok ⟨⟨l.kind, offset⟩ :: line.tokens, line.stop⟩
termination_by cs => cs.length
decreasing_by
  · simp
  · have := rest_length_le_of_scan _read
    simp only [List.length_cons]
    omega

/-- The tokens of a text.  Columns of faults are counted from the start of a line in which
`base` bytes stand before the text. -/
def lex (line base : Nat) (cs : List Char) : Except SyntaxError Line :=
  (lexFrom 0 cs).mapError fun f => ⟨f.cause, line, base + f.offset + 1⟩

end Token
end StageScript

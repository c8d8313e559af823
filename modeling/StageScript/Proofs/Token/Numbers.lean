/-
# Number literals

A literal is digits, digits with a point and more digits, or a point with digits behind it, and it
denotes a number (`Denotes`).  A number token is almost always such a literal, and its value is
the number that the literal denotes, rounded once.

The exception is a point, a decimal, and with it a second point: the reading of a number that
begins with its point goes on like that of any other number, and takes a fraction of its own.
The text of such a token denotes nothing, and it counts as zero.
-/
import StageScript.Proofs.Decimal.Rounding
import StageScript.Proofs.Token.Coverage

namespace StageScript
namespace Token

open Decimal (natOfDigits read? ofDigits IsRounding)

/-! ## 1. What a literal denotes -/

/-- The text is a number literal, and denotes the number. -/
inductive Denotes : List Char → ℚ → Prop
  | whole {whole : List Char} (h : IsDigits whole) : Denotes whole (natOfDigits whole)
  | decimal {whole fraction : List Char} (hwhole : IsDigits whole) (hfraction : IsDigits fraction) :
      Denotes (whole ++ '.' :: fraction)
        (natOfDigits whole + natOfDigits fraction / 10 ^ fraction.length)
  | pointed {fraction : List Char} (h : IsDigits fraction) :
      Denotes ('.' :: fraction) (natOfDigits fraction / 10 ^ fraction.length)

/-- A point and a decimal that has a point as well. -/
def IsTwicePointed (span : List Char) : Prop :=
  ∃ first second, IsDigits first ∧ IsDigits second ∧ span = '.' :: (first ++ '.' :: second)

variable {span whole fraction : List Char} {v : ℚ}

theorem natOfDigits_append (whole fraction : List Char) :
    natOfDigits (whole ++ fraction)
      = natOfDigits whole * 10 ^ fraction.length + natOfDigits fraction := by
  have happend := Nat.ofDigitChars_append (b := 10) (l := whole) (m := fraction) 0
  rwa [Nat.ofDigitChars_eq_ofDigitChars_zero (l := fraction), mul_comm] at happend

/-- Digits with digits behind a point, as one quotient. -/
theorem natOfDigits_append_div (whole fraction : List Char) :
    (natOfDigits (whole ++ fraction) : ℚ) / 10 ^ fraction.length
      = natOfDigits whole + natOfDigits fraction / 10 ^ fraction.length := by
  rw [natOfDigits_append]
  push_cast
  rw [add_div, mul_div_cancel_right₀ _ (by positivity)]

theorem isRounding_ofDigits (whole fraction : List Char) :
    IsRounding (natOfDigits whole + natOfDigits fraction / 10 ^ fraction.length)
      (ofDigits whole fraction) := by
  rw [← natOfDigits_append_div]
  exact Decimal.isRounding_nearestDecimal _ _

theorem read?_digits (h : IsDigits whole) : read? whole = some (ofDigits whole []) := by
  have hend : ([] : List Char).head?.any Char.isDigit = false := rfl
  obtain ⟨htake, hdrop⟩ := Text.span_append h.2 hend
  rw [List.append_nil] at htake hdrop
  simp [read?, htake, hdrop, h.1]

/-- Digits, perhaps none, with a point and digits behind them. -/
theorem read?_pointed (hwhole : ∀ c ∈ whole, c.isDigit = true) (h : IsDigits fraction) :
    read? (whole ++ '.' :: fraction) = some (ofDigits whole fraction) := by
  have hpoint : ('.' :: fraction).head?.any Char.isDigit = false := rfl
  obtain ⟨htake, hdrop⟩ := Text.span_append hwhole hpoint
  have hall : fraction.all Char.isDigit = true := List.all_eq_true.mpr h.2
  simp [read?, htake, hdrop, h.1, hall]

/-- **A literal is read as the double nearest to what it denotes.** -/
theorem Denotes.exists_read (h : Denotes span v) : ∃ x, read? span = some x ∧ IsRounding v x := by
  cases h with
  | whole h =>
    refine ⟨_, read?_digits h, ?_⟩
    have hround := isRounding_ofDigits span []
    simpa [natOfDigits] using hround
  | decimal hwhole hfraction =>
    exact ⟨_, read?_pointed hwhole.2 hfraction, isRounding_ofDigits _ _⟩
  | @pointed fraction h =>
    refine ⟨_, @read?_pointed [] fraction (List.forall_mem_nil _) h, ?_⟩
    have hround := isRounding_ofDigits [] fraction
    simpa [natOfDigits] using hround

/-- Behind the first point no second one is read over. -/
theorem IsTwicePointed.read?_eq_none (h : IsTwicePointed span) : read? span = none := by
  obtain ⟨first, second, hfirst, hsecond, rfl⟩ := h
  have hall : (first ++ '.' :: second).all Char.isDigit = false := by
    rw [List.all_eq_false]
    exact ⟨'.', by simp, by decide⟩
  have hdrop : ('.' :: (first ++ '.' :: second)).dropWhile Char.isDigit
      = '.' :: (first ++ '.' :: second) := rfl
  simp [read?, hdrop, hall]

/-! ## 2. The texts of number tokens -/

theorem IsDecimal.exists_denotes (h : IsDecimal span) : ∃ v, Denotes span v := by
  rcases h with h | ⟨whole, fraction, hwhole, hfraction, rfl⟩
  · exact ⟨_, .whole h⟩
  · exact ⟨_, .decimal hwhole hfraction⟩

/-- A number token has a literal as its text, or a text with two points. -/
theorem Spelled.of_number {x : Float} (h : Spelled span (.number x)) :
    x = numberValue span ∧ ((∃ v, Denotes span v) ∨ IsTwicePointed span) := by
  cases h with
  | number h => exact ⟨rfl, .inl h.exists_denotes⟩
  | pointed h =>
    refine ⟨rfl, ?_⟩
    rcases h with h | ⟨first, second, hfirst, hsecond, rfl⟩
    · exact .inl ⟨_, .pointed h⟩
    · exact .inr ⟨first, second, hfirst, hsecond, rfl⟩

/-- **What the number tokens of a line are.**  Take any number token of a line that is read.  Its
text stands at its byte, and the reading goes on behind it.  Either the text is a literal, with at
most one point, and the token has the double nearest to what the literal denotes; or it is a point
and a decimal with a point of its own, which denotes nothing, and the token counts as zero. -/
theorem number_tokens_are_literals {line base : Nat} {cs : List Char} {l : Line}
    {before behind : List Token} {x : Float} {offset : Nat} (h : lex line base cs = .ok l)
    (htokens : l.tokens = before ++ ⟨.number x, offset⟩ :: behind) :
    ∃ pre span post, cs = pre ++ (span ++ post) ∧ offset = Text.byteLength pre
      ∧ lexFrom (offset + Text.byteLength span) post = .ok ⟨behind, l.stop⟩
      ∧ ((∃ v, Denotes span v ∧ read? span = some x ∧ IsRounding v x)
        ∨ IsTwicePointed span ∧ read? span = none ∧ x = 0) := by
  obtain ⟨pre, span, post, hcs, hoffset, hspelled, -, hbehind⟩ :=
    exists_span (lex_eq_ok_iff.mp h) htokens
  rw [Nat.zero_add] at hoffset
  obtain ⟨hvalue, htext⟩ := hspelled.of_number
  refine ⟨pre, span, post, hcs, hoffset, hbehind, ?_⟩
  rcases htext with ⟨v, hdenotes⟩ | htwice
  · obtain ⟨y, hy, hround⟩ := hdenotes.exists_read
    have hxy : x = y := by rw [hvalue, numberValue, hy, Option.getD_some]
    exact .inl ⟨v, hdenotes, hxy ▸ hy, hxy ▸ hround⟩
  · have hnone := htwice.read?_eq_none
    exact .inr ⟨htwice, hnone, by rw [hvalue, numberValue, hnone, Option.getD_none]⟩

theorem lex_oneAndHalf : lex 1 0 ['1', '.', '5'] = .ok ⟨[⟨.number 1.5, 0⟩], 3⟩ := by
  have hvalue : numberValue ['1', '.', '5'] = 1.5 := by decide +kernel
  have hscan : scan '1' ['.', '5'] = .ok ⟨.number (numberValue ['1', '.', '5']), 3, []⟩ := rfl
  rw [hvalue] at hscan
  rw [lex, lexFrom_of_scan rfl rfl hscan, lexFrom]
  rfl

theorem number_tokens_are_literals_oneAndHalf :
    ∃ pre span post, ['1', '.', '5'] = pre ++ (span ++ post)
      ∧ ∃ v, Denotes span v ∧ read? span = some 1.5 ∧ IsRounding v 1.5 := by
  have htokens : (⟨[⟨.number 1.5, 0⟩], 3⟩ : Line).tokens = [] ++ ⟨.number 1.5, 0⟩ :: [] := rfl
  obtain ⟨pre, span, post, hcs, -, -, hliteral | ⟨-, -, hzero⟩⟩ :=
    number_tokens_are_literals lex_oneAndHalf htokens
  · exact ⟨pre, span, post, hcs, hliteral⟩
  · exact absurd hzero (by decide +kernel)

/-- Two points and two digits. -/
def twoPoints : List Char := ['.', '5', '.', '5']

/-- One number token takes a text with two points, which no literal is. -/
theorem twoPoints_count_as_zero :
    lex 1 0 twoPoints = .ok ⟨[⟨.number 0, 0⟩], Text.byteLength twoPoints⟩
      ∧ (¬ ∃ v, Denotes twoPoints v) ∧ read? twoPoints = none := by
  have hnone : read? twoPoints = none := by decide +kernel
  have hvalue : numberValue twoPoints = 0 := by rw [numberValue, hnone, Option.getD_none]
  have hscan : scan '.' ['5', '.', '5'] = .ok ⟨.number (numberValue twoPoints), 4, []⟩ := rfl
  rw [hvalue] at hscan
  refine ⟨?_, ?_, hnone⟩
  · rw [lex, twoPoints, lexFrom_of_scan rfl rfl hscan, lexFrom]
    rfl
  · rintro ⟨v, hdenotes⟩
    obtain ⟨x, hx, -⟩ := hdenotes.exists_read
    rw [hnone] at hx
    simp at hx

end Token
end StageScript

/-
# Readers that do not look at case

Names and digits of colors are read without regard to their case.  There are two ways to take a
text to its small letters, and a reader that is tried on the 26 capitals of ASCII is tried on every
character.

* If it does not tell these from their small letters, it may read a text whose letters of ASCII
  were lowered (`map_toLower_of_capital`).  Blanks are such a case, the neighbours that decide the
  form of a sigma, and lower case itself (`lower_map_toLower`).
* If it makes the same of all characters from `g` on besides, it may read what the whole of Unicode
  was lowered to (`map_lowerChar_of_beyond`).  Some letters beyond ASCII do have their lower case in
  it, the sign of the kelvin for one, but none of them comes before `g`.
-/
import StageScript.Text.Blank
import StageScript.Proofs.Text.Lower
import Mathlib.Data.List.Basic

namespace StageScript
namespace Text

/-! ## 1. Characters -/

/-- What 128 characters have, each character of ASCII has. -/
theorem of_ascii {P : Char → Prop} (h : ∀ k < 128, P (Char.ofNat k)) {c : Char}
    (hc : c.toNat < 128) : P c := by
  have hchar := h c.toNat hc
  rwa [Char.ofNat_toNat] at hchar

/-- The capital letters of ASCII, of which there are 26. -/
def capital (i : Nat) : Char := Char.ofNat (65 + i)

theorem exists_capital {c : Char} (hfirst : 65 ≤ c.toNat) (hlast : c.toNat ≤ 90) :
    ∃ i < 26, capital i = c := by
  refine ⟨c.toNat - 65, by omega, ?_⟩
  rw [capital, Nat.add_sub_cancel' hfirst, Char.ofNat_toNat]

theorem toLower_eq_or_capital (c : Char) : c.toLower = c ∨ ∃ i < 26, capital i = c := by
  by_cases h : 65 ≤ c.toNat ∧ c.toNat ≤ 90
  · exact .inr (exists_capital h.1 h.2)
  · exact .inl (dif_neg h)

/-- **What does not tell a capital from its small letter** does not tell any character from its
lower case in ASCII. -/
theorem map_toLower_of_capital {α : Type} (f : Char → α)
    (h : ∀ i < 26, f (capital i).toLower = f (capital i)) (c : Char) : f c.toLower = f c := by
  rcases toLower_eq_or_capital c with hc | ⟨i, hi, rfl⟩
  · rw [hc]
  · exact h i hi

theorem isBlank_toLower : ∀ c : Char, isBlank c.toLower = isBlank c :=
  map_toLower_of_capital isBlank (by decide)

theorem isCased_toLower : ∀ c : Char, isCased c.toLower = isCased c :=
  map_toLower_of_capital isCased (by decide +kernel)

theorem isCaseIgnorable_toLower : ∀ c : Char, isCaseIgnorable c.toLower = isCaseIgnorable c :=
  map_toLower_of_capital isCaseIgnorable (by decide +kernel)

theorem lowerChar_toLower : ∀ c : Char, lowerChar c.toLower = lowerChar c :=
  map_toLower_of_capital lowerChar (by decide +kernel)

/-- The two letters with a lower case of their own are not in ASCII. -/
theorem toNat_toLower_eq_iff {n : Nat} (h : 128 ≤ n) (c : Char) :
    c.toLower.toNat = n ↔ c.toNat = n := by
  rcases toLower_eq_or_capital c with hc | ⟨i, hi, rfl⟩
  · rw [hc]
  · have hascii : ∀ i < 26, (capital i).toLower.toNat < 128 ∧ (capital i).toNat < 128 := by decide
    have := hascii i hi
    omega

/-! ## 2. Characters beyond ASCII -/

/-- Every run but that of the capitals of ASCII lies beyond ASCII, with its lower case behind the
digits. -/
theorem caseRuns_beyond :
    ∀ r ∈ caseRuns, r.first = 65 ∧ r.last = 90 ∨ 128 ≤ r.first ∧ 103 ≤ r.first + r.shift := by
  decide +kernel

theorem lowerChar_eq_or_beyond (c : Char) :
    lowerChar c = c ∨ (∃ i < 26, capital i = c) ∨ 128 ≤ c.toNat ∧ 103 ≤ (lowerChar c).toNat := by
  rw [lowerChar]
  cases hfind : caseRuns.find? (·.covers c.toNat) with
  | none => exact .inl rfl
  | some r =>
    have hr := List.mem_of_find?_eq_some hfind
    have hcovers : r.covers c.toNat = true := by simpa using List.find?_some hfind
    obtain ⟨hfirst, hlast, -⟩ := CaseRun.covers_iff.mp hcovers
    rcases caseRuns_beyond r hr with ⟨hr₁, hr₂⟩ | ⟨hr₁, hr₂⟩
    · exact .inr (.inl (exists_capital (by omega) (by omega)))
    · have himage := CaseRun.toNat_image hcovers (caseRuns_isSound r hr)
      dsimp only
      exact .inr (.inr ⟨by omega, by omega⟩)

variable {α : Type} {f : Char → α} {a : α}

/-- **What does not tell a capital from its small letter,** nor any characters from `g` on, does
not tell a character from its lower case. -/
theorem map_lowerChar_of_beyond (hcapital : ∀ i < 26, f (lowerChar (capital i)) = f (capital i))
    (hbeyond : ∀ c : Char, 103 ≤ c.toNat → f c = a) (c : Char) : f (lowerChar c) = f c := by
  rcases lowerChar_eq_or_beyond c with hc | ⟨i, hi, rfl⟩ | ⟨hc, hlower⟩
  · rw [hc]
  · exact hcapital i hi
  · rw [hbeyond _ hlower, hbeyond c (by omega)]

/-! ## 3. Texts -/

theorem trimLeft_map {f : Char → Char} (hf : ∀ c, isBlank (f c) = isBlank c) (cs : List Char) :
    trimLeft (cs.map f) = (trimLeft cs).map f := by
  have hcomp : isBlank ∘ f = isBlank := funext hf
  rw [trimLeft, trimLeft, List.dropWhile_map, hcomp]

/-- A change of characters that makes and loses no blank may be made before or behind trimming. -/
theorem trim_map {f : Char → Char} (hf : ∀ c, isBlank (f c) = isBlank c) (cs : List Char) :
    trim (cs.map f) = (trim cs).map f := by
  have hcomp : isBlank ∘ f = isBlank := funext hf
  rw [trim, trim, trimLeft_map hf, trimRight, trimRight, ← List.map_reverse, List.dropWhile_map,
    hcomp, List.map_reverse]

theorem meetsLetter_map_toLower (cs : List Char) :
    meetsLetter (cs.map Char.toLower) = meetsLetter cs := by
  have hcomp : isCaseIgnorable ∘ Char.toLower = isCaseIgnorable := funext isCaseIgnorable_toLower
  rw [meetsLetter, meetsLetter, List.dropWhile_map, hcomp]
  cases cs.dropWhile isCaseIgnorable with
  | nil => rfl
  | cons c cs => exact isCased_toLower c

theorem lowerBetween_toLower (before : List Char) (c : Char) (behind : List Char) :
    lowerBetween (before.map Char.toLower) c.toLower (behind.map Char.toLower)
      = lowerBetween before c behind := by
  simp only [lowerBetween, meetsLetter_map_toLower, lowerChar_toLower,
    toNat_toLower_eq_iff (by decide : 128 ≤ 0x3A3), toNat_toLower_eq_iff (by decide : 128 ≤ 0x130)]

theorem lowerAfter_map_toLower (before cs : List Char) :
    lowerAfter (before.map Char.toLower) (cs.map Char.toLower) = lowerAfter before cs := by
  induction cs generalizing before with
  | nil => rfl
  | cons c cs ih =>
    have hbehind := ih (c :: before)
    rw [List.map_cons] at hbehind
    rw [List.map_cons, lowerAfter, lowerAfter, lowerBetween_toLower, hbehind]

/-- **The lower case of a text** is that of the text with small letters of ASCII. -/
theorem lower_map_toLower (cs : List Char) : lower (cs.map Char.toLower) = lower cs :=
  lowerAfter_map_toLower [] cs

end Text
end StageScript

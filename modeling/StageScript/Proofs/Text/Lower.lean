/-
# Lower case is reached in one pass

Lowering a text twice is lowering it once.  A name that was lowered when a script was read may
therefore be lowered again when it is looked up.

The argument is about characters first.  A character is *low* when no run of capital letters
covers it and it is not the dotted capital I; what stands around it cannot matter then, since
the one letter whose lower case depends on its neighbours is a capital.
-/
import StageScript.Text.Lower
import Mathlib.Data.List.Basic

namespace StageScript
namespace Text

/-! ## 1. Low characters -/

/-- The character has no other lower case: no run covers it, and it is not the dotted capital
I. -/
def IsLow (c : Char) : Prop := (∀ r ∈ caseRuns, r.covers c.toNat = false) ∧ c.toNat ≠ 0x130

theorem IsLow.lowerBetween {c : Char} (h : IsLow c) (before behind : List Char) :
    lowerBetween before c behind = [c] := by
  obtain ⟨hruns, hdotted⟩ := h
  have hsigma : c.toNat ≠ 0x3A3 := by
    intro hc
    have hrun := hruns ⟨0x3A3, 0x3AB, 1, 32⟩ (List.mem_of_find?_eq_some (p := (·.covers 0x3A3)) rfl)
    rw [hc] at hrun
    revert hrun
    decide
  have hnone : caseRuns.find? (·.covers c.toNat) = none := by
    rw [List.find?_eq_none]
    intro r hr
    simp [hruns r hr]
  rw [Text.lowerBetween, if_neg hsigma, if_neg hdotted, lowerChar, hnone]

/-- **A text of low characters is its own lower case**, whatever stands before it. -/
theorem lowerAfter_of_isLow {cs : List Char} (h : ∀ c ∈ cs, IsLow c) (before : List Char) :
    lowerAfter before cs = cs := by
  induction cs generalizing before with
  | nil => rfl
  | cons c cs ih =>
    rw [lowerAfter, (h c (by simp)).lowerBetween,
      ih (fun d hd => h d (List.mem_cons_of_mem _ hd)), List.singleton_append]

/-! ## 2. The images of the runs

Where a run of capitals is moved to, no run of capitals lies: it is beside each of them, or
the two take turns. -/

/-- The first code point of the image of the run. -/
def CaseRun.image (r : CaseRun) : Nat := (r.first + r.shift).toNat

/-- The image of the run and the run `q` share no code point. -/
def CaseRun.misses (r q : CaseRun) : Bool :=
  Nat.blt (r.image + (r.last - r.first)) q.first || Nat.blt q.last r.image ||
    (r.step == 2 || r.first == r.last) && q.step == 2 && (r.image + q.first) % 2 == 1

/-- The image of the run consists of characters. -/
def CaseRun.isSound (r : CaseRun) : Bool :=
  0 ≤ r.first + r.shift &&
    (r.last + r.shift < 0xD800 || 0xDFFF < r.first + r.shift && r.last + r.shift < 0x110000)

theorem CaseRun.covers_iff {r : CaseRun} {n : Nat} :
    r.covers n = true ↔ r.first ≤ n ∧ n ≤ r.last ∧ (n - r.first) % r.step = 0 := by
  simp [CaseRun.covers, and_assoc]

theorem CaseRun.not_covers_image {r q : CaseRun} {n : Nat} (hn : r.covers n = true)
    (hmiss : r.misses q = true) (hsound : r.isSound = true) :
    q.covers (n + r.shift).toNat = false := by
  obtain ⟨hfirst, hlast, hstep⟩ := CaseRun.covers_iff.mp hn
  rw [← Bool.not_eq_true, CaseRun.covers_iff]
  rintro ⟨hqfirst, hqlast, hqstep⟩
  simp only [CaseRun.isSound, Bool.and_eq_true, decide_eq_true_eq] at hsound
  simp only [CaseRun.misses, CaseRun.image, Bool.or_eq_true, Bool.and_eq_true, Nat.blt_eq,
    beq_iff_eq] at hmiss
  rcases hmiss with (hbelow | habove) | ⟨⟨hr, hq⟩, hturns⟩
  · omega
  · omega
  · rw [hq] at hqstep
    rcases hr with hr | hr
    · rw [hr] at hstep
      omega
    · omega

theorem CaseRun.isValidChar_image {r : CaseRun} {n : Nat} (hn : r.covers n = true)
    (hsound : r.isSound = true) : (n + r.shift).toNat.isValidChar := by
  obtain ⟨hfirst, hlast, -⟩ := CaseRun.covers_iff.mp hn
  simp only [CaseRun.isSound, Bool.and_eq_true, Bool.or_eq_true, decide_eq_true_eq] at hsound
  rw [Nat.isValidChar]
  omega

theorem CaseRun.toNat_image {r : CaseRun} {n : Nat} (hn : r.covers n = true)
    (hsound : r.isSound = true) :
    (Char.ofNat (n + r.shift).toNat).toNat = (n + r.shift).toNat := by
  rw [Char.ofNat, dif_pos (CaseRun.isValidChar_image hn hsound)]
  unfold Char.ofNatAux Char.toNat
  simp

theorem caseRuns_isSound : ∀ r ∈ caseRuns, r.isSound = true := by decide +kernel

theorem caseRuns_misses : ∀ r ∈ caseRuns, ∀ q ∈ caseRuns, r.misses q = true := by
  simp only [← List.all_eq_true]
  decide +kernel

/-- No capital has the dotted capital I as its lower case. -/
theorem caseRuns_misses_dotted : ∀ r ∈ caseRuns, r.misses ⟨0x130, 0x130, 1, 0⟩ = true := by
  decide +kernel

/-- What a run makes of a capital is low. -/
theorem isLow_image {r : CaseRun} (hr : r ∈ caseRuns) {n : Nat} (hn : r.covers n = true) :
    IsLow (Char.ofNat (n + r.shift).toNat) := by
  have hsound := caseRuns_isSound r hr
  have himage := CaseRun.toNat_image hn hsound
  constructor
  · intro q hq
    rw [himage]
    exact CaseRun.not_covers_image hn (caseRuns_misses r hr q hq) hsound
  · intro hdot
    have hmiss := CaseRun.not_covers_image hn (caseRuns_misses_dotted r hr) hsound
    rw [← himage, hdot] at hmiss
    revert hmiss
    decide

/-! ## 3. Lowering twice -/

theorem isLow_lowerChar {c : Char} (hdotted : c.toNat ≠ 0x130) : IsLow (lowerChar c) := by
  rw [lowerChar]
  cases hfind : caseRuns.find? (·.covers c.toNat) with
  | none =>
    rw [List.find?_eq_none] at hfind
    exact ⟨fun r hr => by simpa using hfind r hr, hdotted⟩
  | some r =>
    have hcovers : r.covers c.toNat = true := by simpa using List.find?_some hfind
    exact isLow_image (List.mem_of_find?_eq_some hfind) hcovers

theorem isLow_of_mem_lowerBetween {before behind : List Char} {c d : Char}
    (h : d ∈ lowerBetween before c behind) : IsLow d := by
  rw [lowerBetween] at h
  split at h
  · rw [List.mem_singleton.mp h]
    split <;> exact ⟨by decide +kernel, by decide⟩
  · split at h
    · rcases List.mem_cons.mp h with rfl | h
      · exact ⟨by decide +kernel, by decide⟩
      · rw [List.mem_singleton.mp h]
        exact ⟨by decide +kernel, by decide⟩
    · rename_i hdotted
      rw [List.mem_singleton.mp h]
      exact isLow_lowerChar hdotted

theorem isLow_of_mem_lowerAfter {before cs : List Char} {d : Char}
    (h : d ∈ lowerAfter before cs) : IsLow d := by
  induction cs generalizing before with
  | nil => simp [lowerAfter] at h
  | cons c cs ih =>
    rw [lowerAfter, List.mem_append] at h
    rcases h with h | h
    · exact isLow_of_mem_lowerBetween h
    · exact ih h

/-- **Lowering a text twice is lowering it once.** -/
theorem lower_lower (cs : List Char) : lower (lower cs) = lower cs :=
  lowerAfter_of_isLow (fun _ hd => isLow_of_mem_lowerAfter hd) []

end Text
end StageScript

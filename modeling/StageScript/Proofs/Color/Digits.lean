/-
# Digits of colors

What digits say about a color is stated without the reading: a digit has a value if it is how this
value is written, in either case (`IsDigitOf`), two digits write the byte that they are in base
sixteen (`Writes`), and a run of digits writes the bytes of its pairs (`Pairs`).

`ofHexDigits?` reads the digits one by one and then looks at how many there are.  Pairs of digits
are read as the bytes that they write (`ofHexDigits?_of_pairs`, `ofHexDigits?_of_solid`), three or
four digits as if each of them stood twice (`ofHexDigits?_doubled`), and nothing else is read at
all (`exists_ofHexDigits?_iff`).
-/
import StageScript.Color
import StageScript.Proofs.Text.Case
import Mathlib.Data.List.Forall2
import Mathlib.Data.Nat.Digits.Defs
import Mathlib.Tactic

namespace StageScript
namespace Color

/-! ## 1. One digit -/

/-- The digit has the value, in either case. -/
def IsDigitOf (d : Char) (n : Nat) : Prop := n < 16 ∧ d.toLower = Nat.digitChar n

/-- A digit of base sixteen. -/
def IsHexDigit (d : Char) : Prop := '0' ≤ d ∧ d ≤ '9' ∨ 'a' ≤ d ∧ d ≤ 'f' ∨ 'A' ≤ d ∧ d ≤ 'F'

instance (d : Char) : Decidable (IsHexDigit d) := by
  unfold IsHexDigit
  infer_instance

variable {d : Char} {n : Nat} {ds : List Char}

theorem hexValue?_toLower : ∀ d : Char, hexValue? d.toLower = hexValue? d :=
  Text.map_toLower_of_capital hexValue? (by decide)

theorem le_iff_toNat_le (c d : Char) : c ≤ d ↔ c.toNat ≤ d.toNat := by
  rw [Char.le_def, UInt32.le_iff_toNat_le]
  rfl

theorem isDigit_iff (d : Char) : d.isDigit = true ↔ '0' ≤ d ∧ d ≤ '9' := by
  rw [Char.isDigit_iff_toNat, le_iff_toNat_le, le_iff_toNat_le]

theorem isHexDigit_iff_exists : IsHexDigit d ↔ ∃ n, hexValue? d = some n := by
  unfold IsHexDigit hexValue?
  rw [← isDigit_iff]
  split_ifs with hdigit hsmall hcapital
  · exact ⟨fun _ => ⟨_, rfl⟩, fun _ => .inl hdigit⟩
  · exact ⟨fun _ => ⟨_, rfl⟩, fun _ => .inr (.inl hsmall)⟩
  · exact ⟨fun _ => ⟨_, rfl⟩, fun _ => .inr (.inr hcapital)⟩
  · simp [hdigit, hsmall, hcapital]

/-- No digit comes behind `f`. -/
theorem IsHexDigit.toNat_lt (h : IsHexDigit d) : d.toNat < 103 := by
  simp only [IsHexDigit, le_iff_toNat_le] at h
  have hnine : ('9' : Char).toNat = 57 := rfl
  have hsmall : ('f' : Char).toNat = 102 := rfl
  have hcapital : ('F' : Char).toNat = 70 := rfl
  omega

theorem IsHexDigit.isAscii (h : IsHexDigit d) : d.toNat < 128 := h.toNat_lt.trans (by decide)

/-- **A digit is read as its value,** and nothing else is read. -/
theorem hexValue?_eq_some_iff : hexValue? d = some n ↔ IsDigitOf d n := by
  constructor
  · intro h
    have hascii : ∀ k < 128, ∀ n ∈ hexValue? (Char.ofNat k), IsDigitOf (Char.ofNat k) n := by
      unfold IsDigitOf
      decide
    have hdigit : IsHexDigit d := isHexDigit_iff_exists.mpr ⟨n, h⟩
    exact Text.of_ascii (P := fun d => ∀ n ∈ hexValue? d, IsDigitOf d n) hascii hdigit.isAscii n h
  · rintro ⟨hn, hd⟩
    rw [← hexValue?_toLower, hd]
    interval_cases n <;> rfl

theorem isHexDigit_iff : IsHexDigit d ↔ ∃ n, IsDigitOf d n := by
  simp only [isHexDigit_iff_exists, hexValue?_eq_some_iff]

/-! ## 2. Runs of digits -/

/-- Two digits write the byte that they are in base sixteen. -/
def Writes (high low : Char) (b : UInt8) : Prop :=
  ∃ n m, IsDigitOf high n ∧ IsDigitOf low m ∧ b.toNat = Nat.ofDigits 16 [m, n]

/-- The digits write the bytes, two digits a byte. -/
inductive Pairs : List Char → List UInt8 → Prop
  | nil : Pairs [] []
  | cons {high low : Char} {b : UInt8} {ds : List Char} {bs : List UInt8} (h : Writes high low b)
      (hmore : Pairs ds bs) : Pairs (high :: low :: ds) (b :: bs)

/-- Every digit twice. -/
def doubled (ds : List Char) : List Char := ds.flatMap fun d => [d, d]

/-- What digits say about the channels. -/
inductive Says : List Char → Rgba → Prop
  | full {ds : List Char} {r g b a : UInt8} (h : Pairs ds [r, g, b, a]) : Says ds ⟨r, g, b, a⟩
  /-- Without an alpha nothing shines through. -/
  | solid {ds : List Char} {r g b : UInt8} (h : Pairs ds [r, g, b]) : Says ds ⟨r, g, b, 255⟩
  /-- A single digit for each channel counts twice. -/
  | short {ds : List Char} {px : Rgba} (hlength : ds.length = 3 ∨ ds.length = 4)
      (h : Says (doubled ds) px) : Says ds px

variable {high low : Char} {m : Nat} {b : UInt8} {bs : List UInt8} {ns : List Nat}

theorem toNat_channel (hn : n < 16) (hm : m < 16) :
    (channel n m).toNat = Nat.ofDigits 16 [m, n] := by
  have hvalue : Nat.ofDigits 16 [m, n] = 16 * n + m := by
    rw [Nat.ofDigits_cons, Nat.ofDigits_singleton, Nat.add_comm]
  have hsize : 16 * n + m < UInt8.size := Nat.lt_of_lt_of_eq (by omega : _ < 256) rfl
  rw [hvalue]
  exact UInt8.toNat_ofNat_of_lt' hsize

theorem Writes.of_digits (hhigh : IsDigitOf high n) (hlow : IsDigitOf low m) :
    Writes high low (channel n m) :=
  ⟨n, m, hhigh, hlow, toNat_channel hhigh.1 hlow.1⟩

theorem Writes.exists_digits (h : Writes high low b) :
    ∃ n m, IsDigitOf high n ∧ IsDigitOf low m ∧ b = channel n m := by
  obtain ⟨n, m, hhigh, hlow, hb⟩ := h
  exact ⟨n, m, hhigh, hlow, UInt8.toNat_inj.mp (hb.trans (toNat_channel hhigh.1 hlow.1).symm)⟩

/-- The values of the digits, all of them or none. -/
theorem mapM_hexValue?_eq_some_iff :
    ds.mapM hexValue? = some ns ↔ List.Forall₂ IsDigitOf ds ns := by
  induction ds generalizing ns with
  | nil => simp [eq_comm]
  | cons d ds ih =>
    rw [List.forall₂_cons_left_iff, List.mapM_cons]
    simp only [bind, pure, Option.bind_eq_some_iff, Option.some.injEq, ih, hexValue?_eq_some_iff]
    constructor
    · rintro ⟨n, hn, ns, hns, rfl⟩
      exact ⟨n, ns, hn, hns, rfl⟩
    · rintro ⟨n, ns, hn, hns, rfl⟩
      exact ⟨n, hn, ns, hns, rfl⟩

/-- The channels that the values of digits make. -/
def ofValues? : List Nat → Option Rgba
  | [r, g, b] => some ⟨channel r r, channel g g, channel b b, 255⟩
  | [r, g, b, a] => some ⟨channel r r, channel g g, channel b b, channel a a⟩
  | [r, r', g, g', b, b'] => some ⟨channel r r', channel g g', channel b b', 255⟩
  | [r, r', g, g', b, b', a, a'] =>
    some ⟨channel r r', channel g g', channel b b', channel a a'⟩
  | _ => none

theorem ofHexDigits?_eq (ds : List Char) :
    ofHexDigits? ds = (ds.mapM hexValue?).bind ofValues? := rfl

theorem ofHexDigits?_of_forall₂ (h : List.Forall₂ IsDigitOf ds ns) :
    ofHexDigits? ds = ofValues? ns := by
  rw [ofHexDigits?_eq, mapM_hexValue?_eq_some_iff.mpr h, Option.bind_some]

/-- Two digits for each channel. -/
theorem ofHexDigits?_of_pairs {r g b a : UInt8} (h : Pairs ds [r, g, b, a]) :
    ofHexDigits? ds = some ⟨r, g, b, a⟩ := by
  obtain _ | ⟨hr, _ | ⟨hg, _ | ⟨hb, _ | ⟨ha, _ | _⟩⟩⟩⟩ := h
  obtain ⟨r₁, r₂, hr₁, hr₂, rfl⟩ := hr.exists_digits
  obtain ⟨g₁, g₂, hg₁, hg₂, rfl⟩ := hg.exists_digits
  obtain ⟨b₁, b₂, hb₁, hb₂, rfl⟩ := hb.exists_digits
  obtain ⟨a₁, a₂, ha₁, ha₂, rfl⟩ := ha.exists_digits
  exact ofHexDigits?_of_forall₂ (.cons hr₁ (.cons hr₂ (.cons hg₁ (.cons hg₂ (.cons hb₁ (.cons hb₂
    (.cons ha₁ (.cons ha₂ .nil))))))))

/-- Two digits for each channel but the alpha. -/
theorem ofHexDigits?_of_solid {r g b : UInt8} (h : Pairs ds [r, g, b]) :
    ofHexDigits? ds = some ⟨r, g, b, 255⟩ := by
  obtain _ | ⟨hr, _ | ⟨hg, _ | ⟨hb, _ | _⟩⟩⟩ := h
  obtain ⟨r₁, r₂, hr₁, hr₂, rfl⟩ := hr.exists_digits
  obtain ⟨g₁, g₂, hg₁, hg₂, rfl⟩ := hg.exists_digits
  obtain ⟨b₁, b₂, hb₁, hb₂, rfl⟩ := hb.exists_digits
  exact ofHexDigits?_of_forall₂ (.cons hr₁ (.cons hr₂ (.cons hg₁ (.cons hg₂ (.cons hb₁ (.cons hb₂
    .nil))))))

theorem mapM_doubled (ds : List Char) :
    (doubled ds).mapM hexValue? = (ds.mapM hexValue?).map fun ns => ns.flatMap fun n => [n, n] := by
  induction ds with
  | nil => rfl
  | cons d ds ih =>
    have hcons : doubled (d :: ds) = d :: d :: doubled ds := rfl
    rw [hcons, List.mapM_cons, List.mapM_cons, List.mapM_cons, ih]
    cases hexValue? d with
    | none => rfl
    | some n => cases ds.mapM hexValue? <;> rfl

/-- One digit for each channel is as good as the same digit twice, with or without the alpha. -/
theorem ofHexDigits?_doubled (h : ds.length = 3 ∨ ds.length = 4) :
    ofHexDigits? (doubled ds) = ofHexDigits? ds := by
  rw [ofHexDigits?_eq, ofHexDigits?_eq, mapM_doubled]
  cases hvalues : ds.mapM hexValue? with
  | none => rfl
  | some ns =>
    rw [(mapM_hexValue?_eq_some_iff.mp hvalues).length_eq] at h
    rcases h with h | h
    · obtain ⟨r, g, b, rfl⟩ := List.length_eq_three.mp h
      rfl
    · obtain ⟨r, g, b, a, rfl⟩ : ∃ r g b a, ns = [r, g, b, a] := by
        match ns, h with
        | [r, g, b, a], _ => exact ⟨r, g, b, a, rfl⟩
      rfl

/-- **What is read of the digits is what they say,** and digits that say nothing are not read. -/
theorem ofHexDigits?_eq_some_iff {px : Rgba} : ofHexDigits? ds = some px ↔ Says ds px := by
  constructor
  · intro h
    obtain ⟨ns, hns, hpx⟩ := Option.bind_eq_some_iff.mp (ofHexDigits?_eq ds ▸ h)
    rw [mapM_hexValue?_eq_some_iff] at hns
    -- one case for each number of digits
    unfold ofValues? at hpx
    split at hpx
    case h_1 =>
      obtain rfl := Option.some.inj hpx
      obtain _ | ⟨hr, _ | ⟨hg, _ | ⟨hb, _ | _⟩⟩⟩ := hns
      exact .short (.inl rfl) (.solid (.cons (.of_digits hr hr) (.cons (.of_digits hg hg)
        (.cons (.of_digits hb hb) .nil))))
    case h_2 =>
      obtain rfl := Option.some.inj hpx
      obtain _ | ⟨hr, _ | ⟨hg, _ | ⟨hb, _ | ⟨ha, _ | _⟩⟩⟩⟩ := hns
      exact .short (.inr rfl) (.full (.cons (.of_digits hr hr) (.cons (.of_digits hg hg)
        (.cons (.of_digits hb hb) (.cons (.of_digits ha ha) .nil)))))
    case h_3 =>
      obtain rfl := Option.some.inj hpx
      obtain _ | ⟨hr, _ | ⟨hr', _ | ⟨hg, _ | ⟨hg', _ | ⟨hb, _ | ⟨hb', _ | _⟩⟩⟩⟩⟩⟩ := hns
      exact .solid (.cons (.of_digits hr hr') (.cons (.of_digits hg hg')
        (.cons (.of_digits hb hb') .nil)))
    case h_4 =>
      obtain rfl := Option.some.inj hpx
      obtain _ | ⟨hr, _ | ⟨hr', _ | ⟨hg, _ | ⟨hg', _ | ⟨hb, _ | ⟨hb', _ | ⟨ha, _ | ⟨ha',
        _ | _⟩⟩⟩⟩⟩⟩⟩⟩ := hns
      exact .full (.cons (.of_digits hr hr') (.cons (.of_digits hg hg')
        (.cons (.of_digits hb hb') (.cons (.of_digits ha ha') .nil))))
    case h_5 => simp at hpx
  · intro h
    induction h with
    | full h => exact ofHexDigits?_of_pairs h
    | solid h => exact ofHexDigits?_of_solid h
    | short hlength _ ih => rw [← ofHexDigits?_doubled hlength, ih]

theorem exists_forall₂_isDigitOf_iff :
    (∃ ns, List.Forall₂ IsDigitOf ds ns) ↔ ∀ d ∈ ds, IsHexDigit d := by
  induction ds with
  | nil => simp
  | cons d ds ih =>
    rw [List.forall_mem_cons, ← ih, isHexDigit_iff]
    constructor
    · rintro ⟨_, _ | ⟨hn, hns⟩⟩
      exact ⟨⟨_, hn⟩, ⟨_, hns⟩⟩
    · rintro ⟨⟨n, hn⟩, ⟨ns, hns⟩⟩
      exact ⟨n :: ns, .cons hn hns⟩

theorem exists_ofValues?_iff :
    (∃ px, ofValues? ns = some px)
      ↔ ns.length = 3 ∨ ns.length = 4 ∨ ns.length = 6 ∨ ns.length = 8 := by
  unfold ofValues?
  constructor
  · rintro ⟨px, h⟩
    split at h
    case h_1 => exact .inl rfl
    case h_2 => exact .inr (.inl rfl)
    case h_3 => exact .inr (.inr (.inl rfl))
    case h_4 => exact .inr (.inr (.inr rfl))
    case h_5 => simp at h
  · intro h
    match ns, h with
    | [r, g, b], _ => exact ⟨_, rfl⟩
    | [r, g, b, a], _ => exact ⟨_, rfl⟩
    | [r, r', g, g', b, b'], _ => exact ⟨_, rfl⟩
    | [r, r', g, g', b, b', a, a'], _ => exact ⟨_, rfl⟩

/-- Only the number of the digits decides whether they are read. -/
theorem exists_ofHexDigits?_iff :
    (∃ px, ofHexDigits? ds = some px)
      ↔ (ds.length = 3 ∨ ds.length = 4 ∨ ds.length = 6 ∨ ds.length = 8)
        ∧ ∀ d ∈ ds, IsHexDigit d := by
  rw [← exists_forall₂_isDigitOf_iff]
  constructor
  · rintro ⟨px, h⟩
    obtain ⟨ns, hns, hpx⟩ := Option.bind_eq_some_iff.mp (ofHexDigits?_eq ds ▸ h)
    rw [mapM_hexValue?_eq_some_iff] at hns
    rw [hns.length_eq]
    exact ⟨exists_ofValues?_iff.mp ⟨px, hpx⟩, ns, hns⟩
  · rintro ⟨hlength, ns, hns⟩
    rw [hns.length_eq] at hlength
    rw [ofHexDigits?_of_forall₂ hns]
    exact exists_ofValues?_iff.mpr hlength

/-! ## 3. Lower case -/

theorem hexValue?_of_le {d : Char} (h : 103 ≤ d.toNat) : hexValue? d = none := by
  rw [Option.eq_none_iff_forall_ne_some]
  intro n hn
  have hdigit : IsHexDigit d := isHexDigit_iff_exists.mpr ⟨n, hn⟩
  exact absurd hdigit.toNat_lt (Nat.not_lt.mpr h)

theorem hexValue?_lowerChar : ∀ d : Char, hexValue? (Text.lowerChar d) = hexValue? d :=
  Text.map_lowerChar_of_beyond (by decide +kernel) fun _ => hexValue?_of_le

/-- A character that is lowered in a way of its own is no digit, and becomes none. -/
theorem mapM_hexValue?_lowerBetween (before : List Char) (d : Char) (behind : List Char) :
    (Text.lowerBetween before d behind).mapM hexValue? = [d].mapM hexValue? := by
  unfold Text.lowerBetween
  split_ifs with hsigma hfinal hdotted
  · obtain rfl : d = Char.ofNat 0x3A3 := Char.toNat_inj.mp hsigma
    rfl
  · obtain rfl : d = Char.ofNat 0x3A3 := Char.toNat_inj.mp hsigma
    rfl
  · obtain rfl : d = Char.ofNat 0x130 := Char.toNat_inj.mp hdotted
    rfl
  · rw [List.mapM_cons, List.mapM_cons, hexValue?_lowerChar]

theorem mapM_hexValue?_lowerAfter (before ds : List Char) :
    (Text.lowerAfter before ds).mapM hexValue? = ds.mapM hexValue? := by
  induction ds generalizing before with
  | nil => rfl
  | cons d ds ih =>
    rw [Text.lowerAfter, List.mapM_append, mapM_hexValue?_lowerBetween, ih, ← List.mapM_append,
      List.singleton_append]

/-- **Digits may be lowered before they are read,** whatever stands before them. -/
theorem ofHexDigits?_lowerAfter (before ds : List Char) :
    ofHexDigits? (Text.lowerAfter before ds) = ofHexDigits? ds := by
  rw [ofHexDigits?_eq, ofHexDigits?_eq, mapM_hexValue?_lowerAfter]

end Color
end StageScript

/-
# Colors are read as they are written

What a text says about channels is stated without the reading (`Means`): behind a `#` the digits
say it, and any other text says it by its name, which is looked for in lower case.

The digits are cut out at bytes, and a number of one or two digits is read by a reader that takes a
sign as well.  Neither matters.  That all characters are digits is checked first, and digits are
ASCII, so every cut falls between two characters, no sign is left to be read, and a digit counted
twice is still a byte.  `cutRgba` goes this way, with every step that can fail as a failure of its
own, and `run_cutRgba_resolve` says that it is `toRgba?` and that no step fails.

A text is read through its lower case alone (`toRgba?_resolve`), digits and names alike.
-/
import StageScript.Text.Bytes
import StageScript.Proofs.Token.Spelling
import StageScript.Proofs.Color.Digits
import Mathlib.Tactic

namespace StageScript
namespace Color

/-! ## 1. Names -/

set_option maxRecDepth 4000 in
theorem names_increase : (namedTable.map Prod.fst).IsChain (· < ·) := by
  decide +kernel

theorem nodup_names : (namedTable.map Prod.fst).Nodup :=
  names_increase.pairwise.imp fun h => ne_of_lt h

/-- The channels of a name are those of its only row. -/
theorem channelsOf?_eq_some_iff {name : String} {rgb : UInt8 × UInt8 × UInt8} :
    channelsOf? name = some rgb ↔ (name, rgb) ∈ namedTable := by
  unfold channelsOf?
  constructor
  · intro h
    obtain ⟨row, hfind, rfl⟩ := Option.map_eq_some_iff.mp h
    obtain rfl : row.1 = name := by simpa using List.find?_some hfind
    exact List.mem_of_find?_eq_some hfind
  · intro hmem
    have hsome : (namedTable.find? fun row => row.1 == name).isSome := by
      rw [List.find?_isSome]
      exact ⟨_, hmem, beq_self_eq_true name⟩
    obtain ⟨row, hfind⟩ := Option.isSome_iff_exists.mp hsome
    have hname : row.1 = name := by simpa using List.find?_some hfind
    have hrow : row = (name, rgb) :=
      List.inj_on_of_nodup_map nodup_names (List.mem_of_find?_eq_some hfind) hmem hname
    rw [hfind, hrow]
    rfl

theorem exists_channelsOf?_iff {name : String} :
    (∃ rgb, channelsOf? name = some rgb) ↔ name ∈ namedTable.map Prod.fst := by
  simp only [channelsOf?_eq_some_iff, List.mem_map, Prod.exists, exists_and_right, exists_eq_right]

/-! ## 2. Cutting digits out at bytes

A result of `OptionT Option` is nothing at all if a step fails, and otherwise the channels or none.
-/

/-- The byte that digits of base sixteen write; none for no digits and for a number that is no
byte. -/
def unsigned? (ds : List Char) : Option UInt8 := do
  let ns ← ds.mapM hexValue?
  let n := Nat.ofDigits 16 ns.reverse
  if ds ≠ [] ∧ n < UInt8.size then some (UInt8.ofNat n) else none

/-- The byte that a number of base sixteen writes, with or without a plus sign. -/
def byteOf? : List Char → Option UInt8
  | '+' :: ds => unsigned? ds
  | ds => unsigned? ds

/-- The number in the bytes from `i` on; fails if they are no text. -/
def cutNumber (ds : List Char) (i size : Nat) : OptionT Option UInt8 :=
  OptionT.mk ((Text.slice? ds i (i + size)).map byteOf?)

/-- The single digit at `i` twice, as seventeen times its value; fails beyond a byte. -/
def cutTwice (ds : List Char) (i : Nat) : OptionT Option UInt8 := do
  let n ← cutNumber ds i 1
  OptionT.lift (if n.toNat * 17 < UInt8.size then some (n * 17) else none)

/-- The channels that hexadecimal digits write, cut out at bytes. -/
def cutHexDigits (ds : List Char) : OptionT Option Rgba :=
  if ds.all (fun d => IsHexDigit d) then
    match Text.byteLength ds with
    | 3 => do return ⟨← cutTwice ds 0, ← cutTwice ds 1, ← cutTwice ds 2, 255⟩
    | 4 => do return ⟨← cutTwice ds 0, ← cutTwice ds 1, ← cutTwice ds 2, ← cutTwice ds 3⟩
    | 6 => do return ⟨← cutNumber ds 0 2, ← cutNumber ds 2 2, ← cutNumber ds 4 2, 255⟩
    | 8 => do
      return ⟨← cutNumber ds 0 2, ← cutNumber ds 2 2, ← cutNumber ds 4 2, ← cutNumber ds 6 2⟩
    | _ => failure
  else failure

/-- The channels of a color, whose first byte is cut off if it stands for digits. -/
def cutRgba : Color → OptionT Option Rgba
  | hex s => do cutHexDigits (← OptionT.lift (Text.dropBytes? 1 s.toList))
  | named name => OptionT.mk (some (toRgba? (named name)))

section

variable {d d' : Char} {n n' : Nat} {ds : List Char} {ns : List Nat}

theorem IsDigitOf.isHexDigit (h : IsDigitOf d n) : IsHexDigit d := isHexDigit_iff.mpr ⟨n, h⟩

theorem IsHexDigit.utf8Size (h : IsHexDigit d) : d.utf8Size = 1 := by
  have hle : d.val.toNat ≤ 127 := Nat.le_of_lt_succ h.isAscii
  exact if_pos (UInt32.le_iff_toNat_le.mpr hle)

theorem all_isHexDigit_iff :
    ds.all (fun d => IsHexDigit d) = true ↔ ∀ d ∈ ds, IsHexDigit d := by
  simp only [List.all_eq_true, decide_eq_true_eq]

theorem IsHexDigit.ne_plus (h : IsHexDigit d) : d ≠ '+' := by
  rintro rfl
  exact absurd h (by decide)

theorem byteOf?_of_ne_plus (h : d ≠ '+') : byteOf? (d :: ds) = unsigned? (d :: ds) := by
  unfold byteOf?
  split
  · rename_i heq
    exact absurd (List.cons.inj heq).1 h
  · rfl

/-- A number whose first character is a digit has no sign in front. -/
theorem byteOf?_of_forall₂ (h : List.Forall₂ IsDigitOf (d :: ds) ns)
    (hlt : Nat.ofDigits 16 ns.reverse < UInt8.size) :
    byteOf? (d :: ds) = some (UInt8.ofNat (Nat.ofDigits 16 ns.reverse)) := by
  have hvalues := mapM_hexValue?_eq_some_iff.mpr h
  obtain _ | ⟨hd, -⟩ := h
  rw [byteOf?_of_ne_plus hd.isHexDigit.ne_plus, unsigned?, hvalues, Option.bind_eq_bind,
    Option.bind_some, if_pos ⟨List.cons_ne_nil _ _, hlt⟩]

theorem byteOf?_one (h : IsDigitOf d n) : byteOf? [d] = some (UInt8.ofNat n) := by
  have hvalue : Nat.ofDigits 16 [n] = n := Nat.ofDigits_singleton
  have hlt : n < UInt8.size := lt_trans h.1 (by decide)
  rw [byteOf?_of_forall₂ (.cons h .nil) (by rwa [List.reverse_singleton, hvalue]),
    List.reverse_singleton, hvalue]

theorem byteOf?_two (h : IsDigitOf d n) (h' : IsDigitOf d' n') :
    byteOf? [d, d'] = some (channel n n') := by
  have hbyte := toNat_channel h.1 h'.1
  rw [byteOf?_of_forall₂ (.cons h (.cons h' .nil)) (hbyte ▸ UInt8.toNat_lt_size _)]
  exact congrArg some ((congrArg UInt8.ofNat hbyte.symm).trans UInt8.ofNat_toNat)

theorem byteLength_of_digits (h : List.Forall₂ IsDigitOf ds ns) :
    Text.byteLength ds = ns.length := by
  have hdigits := exists_forall₂_isDigitOf_iff.mp ⟨ns, h⟩
  rw [Token.byteLength_eq_length fun d hd => (hdigits d hd).utf8Size, h.length_eq]

/-- A cut between digits does not fail. -/
theorem exists_cutNumber (ks ns ms : List Nat) (h : List.Forall₂ IsDigitOf ds (ks ++ (ns ++ ms))) :
    ∃ span, List.Forall₂ IsDigitOf span ns
      ∧ cutNumber ds ks.length ns.length = OptionT.mk (some (byteOf? span)) := by
  have hpre := List.forall₂_take_append _ _ _ h
  have hrest := List.forall₂_drop_append _ _ _ h
  have hspan := List.forall₂_take_append _ _ _ hrest
  refine ⟨_, hspan, ?_⟩
  have hslice := Text.slice?_between (ds.take ks.length) ((ds.drop ks.length).take ns.length)
    ((ds.drop ks.length).drop ns.length)
  rw [List.take_append_drop, List.take_append_drop, byteLength_of_digits hpre,
    byteLength_of_digits hspan] at hslice
  rw [cutNumber, hslice, Option.map_some]

theorem cutNumber_two (ks ms : List Nat) (h : List.Forall₂ IsDigitOf ds (ks ++ ([n, n'] ++ ms))) :
    cutNumber ds ks.length 2 = pure (channel n n') := by
  obtain ⟨_, _ | ⟨hd, _ | ⟨hd', _ | _⟩⟩, hcut⟩ := exists_cutNumber ks [n, n'] ms h
  rw [byteOf?_two hd hd'] at hcut
  exact hcut

theorem cutTwice_one (ks ms : List Nat) (h : List.Forall₂ IsDigitOf ds (ks ++ ([n] ++ ms))) :
    cutTwice ds ks.length = pure (channel n n) := by
  obtain ⟨_, _ | ⟨hd, _ | _⟩, hcut⟩ := exists_cutNumber ks [n] ms h
  rw [byteOf?_one hd, List.length_singleton] at hcut
  have hn : n < 16 := hd.1
  have hlt : (UInt8.ofNat n).toNat * 17 < UInt8.size := by
    rw [UInt8.toNat_ofNat_of_lt' (lt_trans hn (by decide))]
    exact Nat.lt_of_lt_of_eq (by omega : n * 17 < 256) rfl
  have htwice : UInt8.ofNat n * 17 = channel n n := by
    have hvalue : 16 * n + n = n * 17 := by omega
    rw [channel, hvalue, UInt8.ofNat_mul]
    rfl
  have hlift : OptionT.lift (if (UInt8.ofNat n).toNat * 17 < UInt8.size
      then some (UInt8.ofNat n * 17) else none) = pure (channel n n) := by
    rw [if_pos hlt, htwice]
    rfl
  rw [cutTwice, hcut]
  exact hlift

/-- The channels of three, four, six or eight digits are cut out of them. -/
theorem run_cutHexDigits_of_values {px : Rgba} (hns : List.Forall₂ IsDigitOf ds ns)
    (hvalues : ofValues? ns = some px) : (cutHexDigits ds).run = some (some px) := by
  have hdigits := exists_forall₂_isDigitOf_iff.mp ⟨ns, hns⟩
  rw [cutHexDigits, if_pos (all_isHexDigit_iff.mpr hdigits), byteLength_of_digits hns]
  unfold ofValues? at hvalues
  split at hvalues
  case h_1 r g b =>
    obtain rfl := Option.some.inj hvalues
    have hr : cutTwice ds 0 = pure (channel r r) := cutTwice_one [] [g, b] hns
    have hg : cutTwice ds 1 = pure (channel g g) := cutTwice_one [r] [b] hns
    have hb : cutTwice ds 2 = pure (channel b b) := cutTwice_one [r, g] [] hns
    simp only [List.length_cons, List.length_nil, hr, hg, hb]
    rfl
  case h_2 r g b a =>
    obtain rfl := Option.some.inj hvalues
    have hr : cutTwice ds 0 = pure (channel r r) := cutTwice_one [] [g, b, a] hns
    have hg : cutTwice ds 1 = pure (channel g g) := cutTwice_one [r] [b, a] hns
    have hb : cutTwice ds 2 = pure (channel b b) := cutTwice_one [r, g] [a] hns
    have ha : cutTwice ds 3 = pure (channel a a) := cutTwice_one [r, g, b] [] hns
    simp only [List.length_cons, List.length_nil, hr, hg, hb, ha]
    rfl
  case h_3 r r' g g' b b' =>
    obtain rfl := Option.some.inj hvalues
    have hr : cutNumber ds 0 2 = pure (channel r r') := cutNumber_two [] [g, g', b, b'] hns
    have hg : cutNumber ds 2 2 = pure (channel g g') := cutNumber_two [r, r'] [b, b'] hns
    have hb : cutNumber ds 4 2 = pure (channel b b') := cutNumber_two [r, r', g, g'] [] hns
    simp only [List.length_cons, List.length_nil, hr, hg, hb]
    rfl
  case h_4 r r' g g' b b' a a' =>
    obtain rfl := Option.some.inj hvalues
    have hr : cutNumber ds 0 2 = pure (channel r r') := cutNumber_two [] [g, g', b, b', a, a'] hns
    have hg : cutNumber ds 2 2 = pure (channel g g') := cutNumber_two [r, r'] [b, b', a, a'] hns
    have hb : cutNumber ds 4 2 = pure (channel b b') := cutNumber_two [r, r', g, g'] [a, a'] hns
    have ha : cutNumber ds 6 2 = pure (channel a a') :=
      cutNumber_two [r, r', g, g', b, b'] [] hns
    simp only [List.length_cons, List.length_nil, hr, hg, hb, ha]
    rfl
  case h_5 => simp at hvalues

/-- Other characters, and other numbers of digits, are turned down before anything is cut. -/
theorem run_cutHexDigits_of_none (h : ofHexDigits? ds = none) :
    (cutHexDigits ds).run = some none := by
  have hnone : ¬ ∃ px, ofHexDigits? ds = some px := by
    rintro ⟨px, hpx⟩
    rw [h] at hpx
    exact absurd hpx (by simp)
  rw [exists_ofHexDigits?_iff] at hnone
  rw [cutHexDigits]
  split_ifs with hall
  · have hdigits := all_isHexDigit_iff.mp hall
    have hlength := Token.byteLength_eq_length fun d hd => (hdigits d hd).utf8Size
    rw [hlength]
    have hother : ¬ (ds.length = 3 ∨ ds.length = 4 ∨ ds.length = 6 ∨ ds.length = 8) := by
      intro hnumber
      exact hnone ⟨hnumber, hdigits⟩
    split
    case h_5 => rfl
    all_goals omega
  · rfl

/-- **No cut fails,** and what is cut out is what the digits are read as. -/
theorem run_cutHexDigits (ds : List Char) : (cutHexDigits ds).run = some (ofHexDigits? ds) := by
  cases hpx : ofHexDigits? ds with
  | none => exact run_cutHexDigits_of_none hpx
  | some px =>
    obtain ⟨ns, hns, hvalues⟩ := Option.bind_eq_some_iff.mp (ofHexDigits?_eq ds ▸ hpx)
    exact run_cutHexDigits_of_values (mapM_hexValue?_eq_some_iff.mp hns) hvalues

end

/-! ## 3. Texts -/

/-- What a text without blanks around it says about channels. -/
inductive Means : List Char → Rgba → Prop
  /-- Behind a `#` stand digits. -/
  | digits {ds : List Char} {px : Rgba} (h : Says ds px) : Means ('#' :: ds) px
  /-- Any other text is a name, and nothing shines through. -/
  | name {cs : List Char} {r g b : UInt8} (hsign : cs.head? ≠ some '#')
      (h : (String.ofList (Text.lower cs), r, g, b) ∈ namedTable) : Means cs ⟨r, g, b, 255⟩

/-- The channels of a text in lower case. -/
def ofLowered? (cs : List Char) : Option Rgba :=
  if cs.head? = some '#' then ofHexDigits? (cs.drop 1)
  else toRgba? (named (String.ofList cs))

/-- Two digits of a byte. -/
def digitsOf (b : UInt8) : List Char := [Nat.digitChar (b.toNat / 16), Nat.digitChar (b.toNat % 16)]

/-- The channels as a script writes them, with two digits each. -/
def Rgba.written (px : Rgba) : String :=
  String.ofList ('#' :: [px.red, px.green, px.blue, px.alpha].flatMap digitsOf)

variable {d : Char} {n : Nat} {cs ds : List Char} {px : Rgba}

theorem resolve_of_sign {t : String} (h : Text.trim t.toList = '#' :: ds) :
    resolve t = hex (String.ofList ('#' :: ds)) := by
  rw [resolve, h]
  rfl

theorem resolve_of_no_sign {t : String} (h : (Text.trim t.toList).head? ≠ some '#') :
    resolve t = named (String.ofList (Text.lower (Text.trim t.toList))) := if_neg h

theorem toRgba?_hex (ds : List Char) :
    toRgba? (hex (String.ofList ('#' :: ds))) = ofHexDigits? ds := by
  rw [toRgba?, String.toList_ofList]
  rfl

theorem toRgba?_named_eq_some_iff {name : String} :
    toRgba? (named name) = some px
      ↔ ∃ r g b, (name, r, g, b) ∈ namedTable ∧ px = ⟨r, g, b, 255⟩ := by
  rw [toRgba?, Option.map_eq_some_iff]
  constructor
  · rintro ⟨⟨r, g, b⟩, hrow, rfl⟩
    exact ⟨r, g, b, channelsOf?_eq_some_iff.mp hrow, rfl⟩
  · rintro ⟨r, g, b, hrow, rfl⟩
    exact ⟨(r, g, b), channelsOf?_eq_some_iff.mpr hrow, rfl⟩

/-- A text starts with a `#`, or it is a name. -/
theorem exists_eq_cons_or_head?_ne (cs : List Char) :
    (∃ ds, cs = '#' :: ds) ∨ cs.head? ≠ some '#' := by
  cases cs with
  | nil => exact .inr (by simp)
  | cons c cs =>
    by_cases hc : c = '#'
    · exact .inl ⟨cs, hc ▸ rfl⟩
    · exact .inr (by simpa using hc)

theorem means_cons_iff : Means ('#' :: ds) px ↔ Says ds px := by
  constructor
  · rintro (h | ⟨hsign, -⟩)
    · exact h
    · exact absurd rfl hsign
  · exact .digits

theorem means_iff_of_head?_ne (h : cs.head? ≠ some '#') :
    Means cs px
      ↔ ∃ r g b, (String.ofList (Text.lower cs), r, g, b) ∈ namedTable ∧ px = ⟨r, g, b, 255⟩ := by
  constructor
  · rintro (_ | ⟨-, hrow⟩)
    · exact absurd rfl h
    · exact ⟨_, _, _, hrow, rfl⟩
  · rintro ⟨r, g, b, hrow, rfl⟩
    exact .name h hrow

/-- **A color is read as what its text says.** -/
theorem toRgba?_resolve_eq_some_iff {t : String} :
    (resolve t).toRgba? = some px ↔ Means (Text.trim t.toList) px := by
  rcases exists_eq_cons_or_head?_ne (Text.trim t.toList) with ⟨ds, h⟩ | h
  · rw [resolve_of_sign h, toRgba?_hex, ofHexDigits?_eq_some_iff, h, means_cons_iff]
  · rw [resolve_of_no_sign h, toRgba?_named_eq_some_iff, means_iff_of_head?_ne h]

theorem exists_toRgba?_resolve_iff {t : String} :
    (∃ px, (resolve t).toRgba? = some px)
      ↔ (∃ ds, Text.trim t.toList = '#' :: ds
          ∧ (ds.length = 3 ∨ ds.length = 4 ∨ ds.length = 6 ∨ ds.length = 8)
          ∧ ∀ d ∈ ds, IsHexDigit d)
        ∨ (Text.trim t.toList).head? ≠ some '#'
          ∧ String.ofList (Text.lower (Text.trim t.toList)) ∈ namedTable.map Prod.fst := by
  rcases exists_eq_cons_or_head?_ne (Text.trim t.toList) with ⟨ds, h⟩ | h
  · rw [resolve_of_sign h, toRgba?_hex, exists_ofHexDigits?_iff, h]
    simp
  · have hname : (∃ px, toRgba? (named (String.ofList (Text.lower (Text.trim t.toList)))) = some px)
        ↔ String.ofList (Text.lower (Text.trim t.toList)) ∈ namedTable.map Prod.fst := by
      rw [← exists_channelsOf?_iff]
      simp only [toRgba?, Option.map_eq_some_iff]
      exact ⟨fun ⟨_, rgb, h, _⟩ => ⟨rgb, h⟩, fun ⟨rgb, h⟩ => ⟨_, rgb, h, rfl⟩⟩
    rw [resolve_of_no_sign h, hname]
    constructor
    · exact fun hrow => .inr ⟨h, hrow⟩
    · rintro (⟨ds, hds, -⟩ | ⟨-, hrow⟩)
      · exact absurd (congrArg List.head? hds) h
      · exact hrow

theorem run_cutRgba_named (name : String) :
    (cutRgba (named name)).run = some (toRgba? (named name)) := rfl

/-- **No step fails.** -/
theorem run_cutRgba_resolve (t : String) :
    (cutRgba (resolve t)).run = some (resolve t).toRgba? := by
  rcases exists_eq_cons_or_head?_ne (Text.trim t.toList) with ⟨ds, h⟩ | h
  · have hcut : Text.dropBytes? 1 ('#' :: ds) = some ds := Text.dropBytes?_append ['#'] ds
    have hlift : (OptionT.lift (some ds) : OptionT Option (List Char)) = pure ds := rfl
    rw [resolve_of_sign h, toRgba?_hex, cutRgba, String.toList_ofList, hcut, hlift, pure_bind,
      run_cutHexDigits]
  · rw [resolve_of_no_sign h, run_cutRgba_named]

/-- The sign is its own lower case, and no other character has it as its lower case. -/
theorem lowerChar_eq_sign_iff (c : Char) : Text.lowerChar c = '#' ↔ c = '#' := by
  have hbeyond : ∀ d : Char, 103 ≤ d.toNat → (d == '#') = false := by
    intro d hd
    rw [beq_eq_false_iff_ne]
    rintro rfl
    exact absurd hd (by decide)
  have h := Text.map_lowerChar_of_beyond (f := (· == '#')) (by decide +kernel) hbeyond c
  rw [← beq_iff_eq, h, beq_iff_eq]

theorem lower_cons_sign (ds : List Char) :
    Text.lower ('#' :: ds) = '#' :: Text.lowerAfter ['#'] ds := by
  have hsign : Text.lowerBetween [] '#' ds = ['#'] := by
    rw [Text.lowerBetween, if_neg (by decide), if_neg (by decide),
      (lowerChar_eq_sign_iff '#').mpr rfl]
  rw [Text.lower, Text.lowerAfter, hsign, List.singleton_append]

theorem head?_lower_ne_sign (h : cs.head? ≠ some '#') : (Text.lower cs).head? ≠ some '#' := by
  cases cs with
  | nil => exact h
  | cons c cs =>
    rw [Text.lower, Text.lowerAfter, Text.lowerBetween]
    split_ifs with hsigma hfinal hdotted
    · simp
    · simp
    · simp
    · intro hlower
      have hc : Text.lowerChar c = '#' := Option.some.inj hlower
      exact h (congrArg some ((lowerChar_eq_sign_iff c).mp hc))

/-- **A color is read through the lower case of its text alone.** -/
theorem toRgba?_resolve (t : String) :
    (resolve t).toRgba? = ofLowered? (Text.lower (Text.trim t.toList)) := by
  rcases exists_eq_cons_or_head?_ne (Text.trim t.toList) with ⟨ds, h⟩ | h
  · rw [resolve_of_sign h, toRgba?_hex, h, lower_cons_sign, ofLowered?, List.head?_cons,
      if_pos rfl, List.drop_one, List.tail_cons, ofHexDigits?_lowerAfter]
  · rw [resolve_of_no_sign h, ofLowered?, if_neg (head?_lower_ne_sign h)]

/-- The case of the letters of ASCII is lost before anything is read. -/
theorem lower_trim_map_toLower (cs : List Char) :
    Text.lower (Text.trim (cs.map Char.toLower)) = Text.lower (Text.trim cs) := by
  rw [Text.trim_map Text.isBlank_toLower, Text.lower_map_toLower]

theorem isDigitOf_digitChar (h : n < 16) : IsDigitOf (Nat.digitChar n) n := by
  refine ⟨h, ?_⟩
  interval_cases n <;> rfl

/-- The digits of a byte write it. -/
theorem pairs_flatMap_digitsOf (bs : List UInt8) : Pairs (bs.flatMap digitsOf) bs := by
  induction bs with
  | nil => exact .nil
  | cons b bs ih =>
    have hb : b.toNat < 256 := b.toNat_lt
    have hwrites : Writes (Nat.digitChar (b.toNat / 16)) (Nat.digitChar (b.toNat % 16)) b := by
      refine ⟨b.toNat / 16, b.toNat % 16, isDigitOf_digitChar (by omega),
        isDigitOf_digitChar (by omega), ?_⟩
      rw [Nat.ofDigits_cons, Nat.ofDigits_singleton]
      omega
    exact .cons hwrites ih

theorem isBlank_of_isHexDigit (h : IsHexDigit d) : Text.isBlank d = false := by
  have hascii : ∀ k < 128, IsHexDigit (Char.ofNat k) → Text.isBlank (Char.ofNat k) = false := by
    decide
  exact Text.of_ascii (P := fun d => IsHexDigit d → Text.isBlank d = false) hascii h.isAscii h

/-- Around digits behind their sign there is nothing to trim. -/
theorem resolve_of_digits (h : ∀ d ∈ ds, IsHexDigit d) :
    (resolve (String.ofList ('#' :: ds))).toRgba? = ofHexDigits? ds := by
  have htrim : Text.trim (String.ofList ('#' :: ds)).toList = '#' :: ds := by
    rw [String.toList_ofList]
    refine Text.trim_of_solid (Text.solid_of_forall (List.cons_ne_nil _ _) ?_)
    rw [List.forall_mem_cons]
    exact ⟨rfl, fun d hd => isBlank_of_isHexDigit (h d hd)⟩
  rw [resolve_of_sign htrim, toRgba?_hex]

/-- What is written with two digits for each channel is read back. -/
theorem toRgba?_written (px : Rgba) : (resolve px.written).toRgba? = some px := by
  have hpairs := pairs_flatMap_digitsOf [px.red, px.green, px.blue, px.alpha]
  have hread := ofHexDigits?_of_pairs hpairs
  have hdigits := (exists_ofHexDigits?_iff.mp ⟨_, hread⟩).2
  rw [Rgba.written, resolve_of_digits hdigits, hread]

theorem forall_mem_doubled (h : ∀ d ∈ ds, IsHexDigit d) : ∀ d ∈ doubled ds, IsHexDigit d := by
  intro d hd
  obtain ⟨c, hc, hdc⟩ := List.mem_flatMap.mp hd
  obtain rfl : d = c := by simpa using hdc
  exact h d hc

/-! ## 4. All texts -/

/-- **Every text is read as the color that it writes, or as none.**  No step of the reading fails.
There are channels exactly behind a `#` with three, four, six or eight digits and for a name of the
table in any case, and they are those that the text says.  A digit for each channel is as good as
the same digit twice, and neither the case of letters nor that of ASCII letters alone matters.  So
channels that are written with two digits each are read back. -/
theorem colors_are_read_as_written :
    (∀ t, (cutRgba (resolve t)).run = some (resolve t).toRgba?)
    ∧ (∀ t, (∃ px, (resolve t).toRgba? = some px)
        ↔ (∃ ds, Text.trim t.toList = '#' :: ds
            ∧ (ds.length = 3 ∨ ds.length = 4 ∨ ds.length = 6 ∨ ds.length = 8)
            ∧ ∀ d ∈ ds, IsHexDigit d)
          ∨ (Text.trim t.toList).head? ≠ some '#'
            ∧ String.ofList (Text.lower (Text.trim t.toList)) ∈ namedTable.map Prod.fst)
    ∧ (∀ t px, (resolve t).toRgba? = some px ↔ Means (Text.trim t.toList) px)
    ∧ (∀ ds, (∀ d ∈ ds, IsHexDigit d) → ds.length = 3 ∨ ds.length = 4 →
        (resolve (String.ofList ('#' :: ds))).toRgba?
          = (resolve (String.ofList ('#' :: doubled ds))).toRgba?)
    ∧ (∀ t t', Text.lower (Text.trim t.toList) = Text.lower (Text.trim t'.toList) →
        (resolve t).toRgba? = (resolve t').toRgba?)
    ∧ (∀ t t' : String, t.toList.map Char.toLower = t'.toList.map Char.toLower →
        (resolve t).toRgba? = (resolve t').toRgba?)
    ∧ ∀ px : Rgba, (resolve px.written).toRgba? = some px := by
  refine ⟨run_cutRgba_resolve, fun _ => exists_toRgba?_resolve_iff,
    fun _ _ => toRgba?_resolve_eq_some_iff, ?_, ?_, ?_, toRgba?_written⟩
  · intro ds hdigits hlength
    rw [resolve_of_digits hdigits, resolve_of_digits (forall_mem_doubled hdigits),
      ofHexDigits?_doubled hlength]
  · intro t t' h
    rw [toRgba?_resolve, toRgba?_resolve, h]
  · intro t t' h
    rw [toRgba?_resolve, toRgba?_resolve, ← lower_trim_map_toLower t.toList, h,
      lower_trim_map_toLower t'.toList]

/-- Three digits, a name in two cases, and a name with the sign of the kelvin for its `k`. -/
theorem colors_are_read_as_written_pink :
    ((∀ d ∈ ['0', 'f', '8'], IsHexDigit d)
      ∧ (resolve (String.ofList ['#', '0', 'f', '8'])).toRgba?
        = (resolve (String.ofList ['#', '0', '0', 'f', 'f', '8', '8'])).toRgba?)
    ∧ (Text.lower (Text.trim "pin\u212a".toList) = Text.lower (Text.trim " PINK".toList)
      ∧ (resolve "pin\u212a").toRgba? = (resolve " PINK").toRgba?)
    ∧ ("Pink".toList.map Char.toLower = "PINK".toList.map Char.toLower
      ∧ (resolve "Pink").toRgba? = (resolve "PINK").toRgba?)
    ∧ (resolve "Pink").toRgba? = some ⟨255, 192, 203, 255⟩ := by
  have hdigits : ∀ d ∈ ['0', 'f', '8'], IsHexDigit d := by simp [IsHexDigit]
  have hkelvin :
      Text.lower (Text.trim "pin\u212a".toList) = Text.lower (Text.trim " PINK".toList) := by
    decide +kernel
  have hcase : "Pink".toList.map Char.toLower = "PINK".toList.map Char.toLower := by decide
  have hrow : (String.ofList (Text.lower "Pink".toList), 255, 192, 203) ∈ namedTable := by
    decide +kernel
  obtain ⟨-, -, hmeans, hdoubled, hlower, hascii, -⟩ := colors_are_read_as_written
  exact ⟨⟨hdigits, hdoubled _ hdigits (.inl rfl)⟩, ⟨hkelvin, hlower _ _ hkelvin⟩,
    ⟨hcase, hascii _ _ hcase⟩, (hmeans "Pink" _).mpr (.name (by decide) hrow)⟩

end Color
end StageScript

/-
# Random numbers stay in their ranges

A random number is the lower bound and the high word of a product, and all of these are words of
64 bits: the size of the range wraps to zero when the range is that of all words, the product is
as wide as two words, and its high word is read as a signed one before it is added.  Here the number
is taken in words first (`Samples`), as it is computed, and is then compared with the whole numbers
that `between` computes.  The two agree wherever the sampling comes to an end
(`Samples.between_eq`), so nothing is lost on the way, and the number lies between the bounds.

The sampling takes the first number of the stream that is not passed over.  `pick` looks for it
among as many numbers as the stream has before it repeats (`nth_add_period`), so a number that is
found at all is found there.
-/
import StageScript.Generator
import Mathlib.Algebra.Ring.Periodic
import Mathlib.Tactic

namespace StageScript
namespace Generator

variable {g : Generator} {k : Nat}

/-! ## 1. The stream -/

/-- The generator when `k` more numbers have been taken. -/
def after (g : Generator) (k : Nat) : Generator := { g with taken := g.taken + k }

/-- The `k`-th of the numbers to come. -/
def nth (g : Generator) (k : Nat) : UInt64 := (g.after k).next.1

/-- The numbers of the stream before it repeats: eight for every word that counts a block. -/
def period : Nat := 8 * UInt64.size

theorem nth_zero (g : Generator) : g.nth 0 = g.next.1 := by
  rw [nth, after, Nat.add_zero]

theorem next_snd (g : Generator) : g.next.2 = g.after 1 := by
  rw [next, after]

theorem after_after (g : Generator) (j k : Nat) : (g.after j).after k = g.after (j + k) := by
  simp only [after, Nat.add_assoc]

theorem nth_after (g : Generator) (j k : Nat) : (g.after j).nth k = g.nth (j + k) := by
  rw [nth, nth, after_after]

theorem block_after (g : Generator) (k n : Nat) : (g.after k).block n = g.block n := by
  rw [block, block, after]

theorem block_add_size (g : Generator) (n : Nat) : g.block (n + UInt64.size) = g.block n := by
  have hcounter : UInt64.ofNat (n + UInt64.size) = UInt64.ofNat n := by
    rw [← UInt64.toNat_inj, UInt64.toNat_ofNat', UInt64.toNat_ofNat']
    exact Nat.add_mod_right n UInt64.size
  rw [block, block, hcounter]

theorem add_period_div (n : Nat) : (n + period) / 8 = n / 8 + UInt64.size := by
  rw [period, Nat.add_mul_div_left _ _ (by decide)]

theorem add_period_mod (n : Nat) : (n + period) % 8 = n % 8 := by
  rw [period, Nat.add_mul_mod_self_left]

/-- **The stream repeats itself.** -/
theorem nth_add_period (g : Generator) (k : Nat) : g.nth (k + period) = g.nth k := by
  have htaken : (g.after (k + period)).taken = (g.after k).taken + period :=
    (Nat.add_assoc _ _ _).symm
  rw [nth, nth, next, next, htaken, add_period_div, add_period_mod, block_add_size, block_after,
    block_after]

/-! ## 2. A range in words -/

/-- How many whole numbers there are between two bounds, in one word.  The range of all words has
one more of them than a word can count, and so the size zero. -/
def wordSize (low high : Int64) : UInt64 := (high - low + 1).toUInt64

/-- The high word of a product. -/
def highWord (v size : UInt64) : UInt64 := UInt64.ofNat (v.toNat * size.toNat / UInt64.size)

/-- The greatest low word that is not passed over: the size, moved to the left until its highest
bit is set, less one. -/
def wordZone (size : UInt64) : UInt64 := (size <<< (63 - size.log2)) - 1

/-- The number is not passed over.  The low word of the product is what is left of it when it is
computed in one word. -/
def Accepts (size v : UInt64) : Prop := v * size ≤ wordZone size

/-- The `k`-th of the numbers to come is the first one that is not passed over. -/
structure IsFirst (size : UInt64) (g : Generator) (k : Nat) : Prop where
  accepts : Accepts size (g.nth k)
  passes : ∀ j < k, ¬ Accepts size (g.nth j)

/-- A number between two bounds, computed in words, and the generator behind it.  There is one
only if some number of the stream is not passed over. -/
inductive Samples (low high : Int64) (g : Generator) : Int64 → Generator → Prop
  /-- In the range of all words, a word is a number as it stands. -/
  | whole (hsize : wordSize low high = 0) : Samples low high g (g.nth 0).toInt64 (g.after 1)
  | part {k : Nat} (hsize : wordSize low high ≠ 0) (h : IsFirst (wordSize low high) g k) :
    Samples low high g (low + (highWord (g.nth k) (wordSize low high)).toInt64) (g.after (k + 1))

/-! ## 3. Words and whole numbers -/

section Words

variable {low high : Int64} {size v : UInt64}

/-- Read without a sign, a word is what it is with a sign, up to a multiple of all words. -/
theorem toNat_toUInt64 (x : Int64) : (x.toUInt64.toNat : Int) = x.toInt % UInt64.size := by
  have hsigned : x.toInt = ((x.toUInt64.toNat : Nat) : Int).bmod UInt64.size :=
    BitVec.toInt_eq_toNat_bmod x.toBitVec
  rw [hsigned, Int.bmod_emod, Int.emod_eq_of_lt (Int.natCast_nonneg _)]
  exact Int.ofNat_lt.mpr x.toUInt64.toNat_lt_size

theorem cast_wordSize (low high : Int64) :
    ((wordSize low high).toNat : Int) = (high.toInt - low.toInt + 1) % UInt64.size := by
  have hone : (1 : Int64).toInt = 1 := rfl
  have hwords : (2 ^ 64 : Nat) = UInt64.size := rfl
  rw [wordSize, toNat_toUInt64, Int64.toInt_add, Int64.toInt_sub, hone, hwords, Int.bmod_emod,
    Int.add_emod, Int.bmod_emod, ← Int.add_emod]

/-- A range that has a size in words is no longer than this. -/
theorem cast_wordSize_of_ne (hle : low ≤ high) (hsize : wordSize low high ≠ 0) :
    ((wordSize low high).toNat : Int) = high.toInt - low.toInt + 1 := by
  have hcast := cast_wordSize low high
  have hne : (wordSize low high).toNat ≠ 0 := fun h => hsize (UInt64.toNat_inj.mp h)
  have horder := Int64.le_iff_toInt_le.mp hle
  have hlow := low.le_toInt
  have hhigh := high.toInt_lt
  have hwords : (UInt64.size : Int) = 2 ^ 64 := rfl
  rw [hwords] at hcast
  omega

/-- Only the range of all words has no size. -/
theorem bounds_of_wordSize_eq (hle : low ≤ high) (hsize : wordSize low high = 0) :
    low.toInt = -2 ^ 63 ∧ high.toInt = 2 ^ 63 - 1 := by
  have hcast := cast_wordSize low high
  have horder := Int64.le_iff_toInt_le.mp hle
  have hlow := low.le_toInt
  have hhigh := high.toInt_lt
  have hwords : (UInt64.size : Int) = 2 ^ 64 := rfl
  rw [hsize, hwords] at hcast
  have hzero : ((0 : UInt64).toNat : Int) = 0 := rfl
  rw [hzero] at hcast
  omega

theorem toNat_highWord (v size : UInt64) :
    (highWord v size).toNat = v.toNat * size.toNat / UInt64.size := by
  refine UInt64.toNat_ofNat_of_lt' ?_
  rw [Nat.div_lt_iff_lt_mul (by decide)]
  exact Nat.mul_lt_mul'' v.toNat_lt_size size.toNat_lt_size

/-- The high word of a product is smaller than the size. -/
theorem mul_div_lt {n size : Nat} (hn : n < UInt64.size) (hsize : 0 < size) :
    n * size / UInt64.size < size := by
  rw [Nat.div_lt_iff_lt_mul (by decide), Nat.mul_comm size]
  exact Nat.mul_lt_mul_of_pos_right hn hsize

theorem toNat_pos_of_ne (h : size ≠ 0) : 0 < size.toNat :=
  Nat.pos_of_ne_zero fun hzero => h (UInt64.toNat_inj.mp hzero)

theorem highWord_lt (hsize : size ≠ 0) (v : UInt64) : (highWord v size).toNat < size.toNat := by
  rw [toNat_highWord]
  exact mul_div_lt v.toNat_lt_size (toNat_pos_of_ne hsize)

/-- **The sum does not leave the words,** and it is at most the upper bound. -/
theorem toInt_add_highWord (hle : low ≤ high) (hsize : wordSize low high ≠ 0) (v : UInt64) :
    (low + (highWord v (wordSize low high)).toInt64).toInt
        = low.toInt + (highWord v (wordSize low high)).toNat
      ∧ low.toInt + (highWord v (wordSize low high)).toNat ≤ high.toInt := by
  have hlt := highWord_lt hsize v
  have hcast := cast_wordSize_of_ne hle hsize
  have hlow := low.le_toInt
  have hhigh := high.toInt_lt
  generalize highWord v (wordSize low high) = word at hlt ⊢
  have hword : word.toInt64.toInt = ((word.toNat : Nat) : Int).bmod (2 ^ 64) :=
    BitVec.toInt_eq_toNat_bmod word.toBitVec
  refine ⟨?_, by omega⟩
  rw [Int64.toInt_add, hword, Int.add_bmod_bmod]
  exact Int.bmod_eq_of_le (by omega) (by omega)

/-- The zone in words is the zone: moved to the left, the highest bit of the size stays in the
word, so nothing is lost. -/
theorem toNat_wordZone (hsize : size ≠ 0) : (wordZone size).toNat = zone size.toNat := by
  have hpos := toNat_pos_of_ne hsize
  have hlog : size.log2.toNat = size.toNat.log2 := rfl
  have hbits : size.toNat.log2 < 64 := (Nat.log2_lt hpos.ne').mpr size.toNat_lt
  have hplaces : (63 - size.log2).toNat = 63 - size.toNat.log2 := by
    have hle : size.log2 ≤ 63 := UInt64.le_iff_toNat_le.mpr (Nat.le_of_lt_succ hbits)
    rw [UInt64.toNat_sub_of_le _ _ hle, hlog]
    rfl
  have hlt : size.toNat <<< (63 - size.toNat.log2) < 2 ^ 64 := by
    have hsplit : 2 ^ 64 = 2 ^ (size.toNat.log2 + 1) * 2 ^ (63 - size.toNat.log2) := by
      rw [← pow_add]
      congr 1
      omega
    rw [Nat.shiftLeft_eq, hsplit]
    exact Nat.mul_lt_mul_of_pos_right Nat.lt_log2_self (Nat.two_pow_pos _)
  have hshift : (size <<< (63 - size.log2)).toNat = size.toNat <<< (63 - size.toNat.log2) := by
    rw [UInt64.toNat_shiftLeft, hplaces, Nat.mod_eq_of_lt (by omega : 63 - size.toNat.log2 < 64),
      Nat.mod_eq_of_lt hlt]
  have hone : 1 ≤ size <<< (63 - size.log2) := by
    rw [UInt64.le_iff_toNat_le, hshift, Nat.shiftLeft_eq]
    exact Nat.mul_pos hpos (Nat.two_pow_pos _)
  rw [wordZone, UInt64.toNat_sub_of_le _ _ hone, hshift]
  rfl

/-- Being passed over is decided in words as in whole numbers. -/
theorem accepts_iff (hsize : size ≠ 0) :
    Accepts size v ↔ v.toNat * size.toNat % UInt64.size ≤ zone size.toNat := by
  rw [Accepts, UInt64.le_iff_toNat_le, UInt64.toNat_mul, toNat_wordZone hsize]

end Words

/-! ## 4. The first number that is not passed over -/

theorem IsFirst.tail {size : UInt64} (h : IsFirst size g (k + 1)) : IsFirst size (g.after 1) k where
  accepts := by
    rw [nth_after, Nat.add_comm]
    exact h.accepts
  passes j hj := by
    rw [nth_after, Nat.add_comm]
    exact h.passes (j + 1) (Nat.succ_lt_succ hj)

/-- What the stream has not shown before it repeats, it never shows. -/
theorem IsFirst.lt_period {size : UInt64} (h : IsFirst size g k) : k < period := by
  by_contra hge
  have hpos : 0 < period := Nat.mul_pos (by decide) (by decide)
  have hlt : k % period < k := (Nat.mod_lt k hpos).trans_le (Nat.not_lt.mp hge)
  refine h.passes _ hlt ?_
  rw [Function.Periodic.map_mod_nat (nth_add_period g)]
  exact h.accepts

theorem pick_succ (size patience : Nat) (g : Generator) :
    pick size (patience + 1) g
      = if g.next.1.toNat * size % UInt64.size ≤ zone size then
          (g.next.1.toNat * size / UInt64.size, g.next.2)
        else pick size patience g.next.2 := by
  rw [pick]

/-- **The first number that is not passed over is picked.** -/
theorem pick_of_isFirst {size : UInt64} (hsize : size ≠ 0) {patience : Nat} (h : IsFirst size g k)
    (hk : k ≤ patience) :
    pick size.toNat patience g = ((highWord (g.nth k) size).toNat, g.after (k + 1)) := by
  rw [toNat_highWord]
  induction patience generalizing g k with
  | zero =>
    obtain rfl := Nat.le_zero.mp hk
    rw [pick, nth_zero, ← next_snd]
  | succ patience ih =>
    rw [pick_succ]
    cases k with
    | zero =>
      have haccepts := h.accepts
      rw [nth_zero, accepts_iff hsize] at haccepts
      rw [nth_zero, ← next_snd, if_pos haccepts]
    | succ k =>
      have hpasses := h.passes 0 (Nat.succ_pos k)
      rw [nth_zero, accepts_iff hsize] at hpasses
      rw [if_neg hpasses, next_snd, ih h.tail (Nat.le_of_succ_le_succ hk), nth_after, after_after,
        Nat.add_comm 1 k, Nat.add_comm 1]

/-- Whatever is picked is smaller than the size. -/
theorem pick_lt {size : Nat} (hsize : 0 < size) (patience : Nat) (g : Generator) :
    (pick size patience g).1 < size := by
  induction patience generalizing g with
  | zero => exact mul_div_lt g.next.1.toNat_lt_size hsize
  | succ patience ih =>
    rw [pick_succ]
    split_ifs
    · exact mul_div_lt g.next.1.toNat_lt_size hsize
    · exact ih g.next.2

/-! ## 5. Numbers of a range -/

section Bounds

variable {low high : Int64}

theorem between_size (low high : Int64) :
    ((high.toInt - low.toInt + 1) % UInt64.size).toNat = (wordSize low high).toNat := by
  rw [← cast_wordSize, Int.toNat_natCast]

/-- In the range of all words, the next number of the stream is the result. -/
theorem between_of_eq (hsize : wordSize low high = 0) (g : Generator) :
    between low high g = ((g.nth 0).toInt64.toInt, g.after 1) := by
  rw [between, between_size, hsize, nth_zero, ← next_snd]
  rfl

theorem between_of_ne (hsize : wordSize low high ≠ 0) (g : Generator) :
    between low high g = (low.toInt + (pick (wordSize low high).toNat period g).1,
      (pick (wordSize low high).toNat period g).2) := by
  rw [between, between_size]
  exact if_neg (toNat_pos_of_ne hsize).ne'

/-- **A number is between the bounds,** whatever the state of the generator. -/
theorem between_mem (hle : low ≤ high) (g : Generator) :
    low.toInt ≤ (between low high g).1 ∧ (between low high g).1 ≤ high.toInt := by
  by_cases hsize : wordSize low high = 0
  · obtain ⟨hlow, hhigh⟩ := bounds_of_wordSize_eq hle hsize
    rw [between_of_eq hsize, hlow, hhigh]
    exact ⟨Int64.le_toInt _, Int.le_sub_one_of_lt (Int64.toInt_lt _)⟩
  · have hlt := pick_lt (toNat_pos_of_ne hsize) period g
    have hcast := cast_wordSize_of_ne hle hsize
    rw [between_of_ne hsize]
    dsimp only
    omega

/-- **In words and in whole numbers the same number is taken.** -/
theorem Samples.between_eq (hle : low ≤ high) {n : Int64} {g' : Generator}
    (h : Samples low high g n g') : between low high g = (n.toInt, g') := by
  cases h with
  | whole hsize => exact between_of_eq hsize g
  | part hsize h =>
    rw [between_of_ne hsize, pick_of_isFirst hsize h h.lt_period.le,
      (toInt_add_highWord hle hsize _).1]

end Bounds

/-! ## 6. Bounds in either order -/

section Orders

theorem min_eq_ite (a b : Int64) : min a b = if a ≤ b then a else b := rfl

theorem max_eq_ite (a b : Int64) : max a b = if a ≤ b then b else a := rfl

theorem toInt_min (a b : Int64) : (min a b).toInt = min a.toInt b.toInt := by
  rw [min_eq_ite]
  by_cases hle : a ≤ b
  · rw [if_pos hle, min_eq_left (Int64.le_iff_toInt_le.mp hle)]
  · rw [if_neg hle, min_eq_right]
    exact Int.le_of_not_le (mt Int64.le_iff_toInt_le.mpr hle)

theorem toInt_max (a b : Int64) : (max a b).toInt = max a.toInt b.toInt := by
  rw [max_eq_ite]
  by_cases hle : a ≤ b
  · rw [if_pos hle, max_eq_right (Int64.le_iff_toInt_le.mp hle)]
  · rw [if_neg hle, max_eq_left]
    exact Int.le_of_not_le (mt Int64.le_iff_toInt_le.mpr hle)

theorem min_le_max (a b : Int64) : min a b ≤ max a b := by
  rw [Int64.le_iff_toInt_le, toInt_min, toInt_max]
  exact min_le_iff.mpr (.inl (le_max_left _ _))

/-- Two bounds are put in order before a number is taken. -/
theorem roll_eq (a b : Int64) (g : Generator) :
    roll ⟨a, b⟩ g = (Float.ofInt (between (min a b) (max a b) g).1,
      (between (min a b) (max a b) g).2) := by
  rw [roll, min_eq_ite, max_eq_ite]
  split_ifs
  · rfl
  · rfl

theorem roll_swap (a b : Int64) (g : Generator) : roll ⟨b, a⟩ g = roll ⟨a, b⟩ g := by
  have hmin : min b a = min a b := by
    rw [← Int64.toInt_inj, toInt_min, toInt_min, min_comm]
  have hmax : max b a = max a b := by
    rw [← Int64.toInt_inj, toInt_max, toInt_max, max_comm]
  rw [roll_eq, roll_eq, hmin, hmax]

end Orders

/-- **A random number lies in its range.**  For all bounds, in either order, and every state of the
generator, the range that is asked for is not empty, the result is the double of a whole number
between the bounds, both included, and the order of the bounds changes neither the number nor the
generator behind it.  Wherever the sampling in words comes to an end, its number and its generator
are these; and no sum that it could form leaves the words or the range, whatever number the stream
holds. -/
theorem rolls_stay_in_range (a b : Int64) (g : Generator) :
    min a b ≤ max a b
      ∧ (∃ n : Int, (roll ⟨a, b⟩ g).1 = Float.ofInt n
        ∧ min a.toInt b.toInt ≤ n ∧ n ≤ max a.toInt b.toInt)
      ∧ roll ⟨b, a⟩ g = roll ⟨a, b⟩ g
      ∧ (∀ n g', Samples (min a b) (max a b) g n g' →
          roll ⟨a, b⟩ g = (Float.ofInt n.toInt, g')
            ∧ min a.toInt b.toInt ≤ n.toInt ∧ n.toInt ≤ max a.toInt b.toInt)
      ∧ ∀ v, wordSize (min a b) (max a b) ≠ 0 →
          (min a b + (highWord v (wordSize (min a b) (max a b))).toInt64).toInt
            = min a.toInt b.toInt + (highWord v (wordSize (min a b) (max a b))).toNat
          ∧ min a.toInt b.toInt + (highWord v (wordSize (min a b) (max a b))).toNat
            ≤ max a.toInt b.toInt := by
  have hle := min_le_max a b
  have hmem := between_mem hle g
  rw [toInt_min, toInt_max] at hmem
  refine ⟨hle, ⟨_, congrArg Prod.fst (roll_eq a b g), hmem⟩, roll_swap a b g, ?_, ?_⟩
  · intro n g' hsamples
    rw [hsamples.between_eq hle] at hmem
    rw [roll_eq, hsamples.between_eq hle]
    exact ⟨rfl, hmem⟩
  · intro v hsize
    have hsum := toInt_add_highWord hle hsize v
    rwa [toInt_min, toInt_max] at hsum

/-- From the greatest bound to the least every word is in the range, and the next one is taken.
From six down to one no word leads out of the range. -/
theorem rolls_stay_in_range_whole :
    (wordSize Int64.minValue Int64.maxValue = 0
      ∧ roll ⟨Int64.maxValue, Int64.minValue⟩ (ofSeed 7)
          = (Float.ofInt ((ofSeed 7).nth 0).toInt64.toInt, (ofSeed 7).after 1))
      ∧ wordSize (min 6 1) (max 6 1) ≠ 0
      ∧ ∀ v, min (6 : Int64).toInt (1 : Int64).toInt
          + (highWord v (wordSize (min 6 1) (max 6 1))).toNat
          ≤ max (6 : Int64).toInt (1 : Int64).toInt := by
  have hwhole : wordSize Int64.minValue Int64.maxValue = 0 := by decide
  have hpart : wordSize (min 6 1) (max 6 1) ≠ 0 := by decide
  obtain ⟨-, -, -, hsamples, -⟩ := rolls_stay_in_range Int64.maxValue Int64.minValue (ofSeed 7)
  obtain ⟨-, -, -, -, hsums⟩ := rolls_stay_in_range 6 1 (ofSeed 7)
  exact ⟨⟨hwhole, (hsamples _ _ (.whole hwhole)).1⟩, hpart, fun v => (hsums v hpart).2⟩

end Generator
end StageScript

/-
# Characters counted in bytes

Offsets and columns count the bytes that a character takes in UTF-8, while the text itself
is a list of characters.  A cut at a byte offset is therefore partial: it succeeds only where
a character ends.  Both halves of a cut are defined here as options, so that a later theorem
can say that no cut ever fails.
-/

namespace StageScript
namespace Text

/-! ## 1. Lengths -/

/-- The bytes that a text takes in UTF-8. -/
def byteLength : List Char → Nat
  | [] => 0
  | c :: cs => c.utf8Size + byteLength cs

@[simp] theorem byteLength_nil : byteLength [] = 0 := rfl

@[simp] theorem byteLength_cons (c : Char) (cs : List Char) :
    byteLength (c :: cs) = c.utf8Size + byteLength cs := rfl

@[simp] theorem byteLength_append (as bs : List Char) :
    byteLength (as ++ bs) = byteLength as + byteLength bs := by
  induction as with
  | nil => simp
  | cons c cs ih => simp only [List.cons_append, byteLength_cons, ih, Nat.add_assoc]

/-! ## 2. Cuts -/

/-- What is left after the first `n` bytes.  Nothing, if the cut falls inside a character or
behind the end. -/
def dropBytes? : Nat → List Char → Option (List Char)
  | 0, cs => some cs
  | _ + 1, [] => none
  | n + 1, c :: cs => if c.utf8Size ≤ n + 1 then dropBytes? (n + 1 - c.utf8Size) cs else none

/-- The first `n` bytes.  Nothing, if the cut falls inside a character or behind the end. -/
def takeBytes? : Nat → List Char → Option (List Char)
  | 0, _ => some []
  | _ + 1, [] => none
  | n + 1, c :: cs =>
    if c.utf8Size ≤ n + 1 then (takeBytes? (n + 1 - c.utf8Size) cs).map (c :: ·) else none

/-- The characters between two byte offsets. -/
def slice? (cs : List Char) (lo hi : Nat) : Option (List Char) :=
  if lo ≤ hi then (dropBytes? lo cs).bind (takeBytes? (hi - lo)) else none

/-- **A cut loses nothing.**  What is dropped has exactly the length that was asked for. -/
theorem byteLength_of_dropBytes? {n : Nat} {cs rest : List Char}
    (h : dropBytes? n cs = some rest) : byteLength cs = n + byteLength rest := by
  fun_induction dropBytes? n cs with
  | case1 => simp_all
  | case2 => simp at h
  | case3 n c cs hc ih =>
    have := ih h
    simp only [byteLength_cons]
    omega
  | case4 => simp at h

/-- The bytes of one character, each below 256.  The first one is what a reader of single
bytes meets. -/
def leadByte (c : Char) : Nat :=
  let n := c.toNat
  if n < 0x80 then n
  else if n < 0x800 then 0xC0 + n / 0x40
  else if n < 0x10000 then 0xE0 + n / 0x1000
  else 0xF0 + n / 0x40000

end Text
end StageScript

/-
# The editor

The text of the editor is kept in two halves, what stands before the caret, **the nearest
character first**, and what stands behind it.  So every key works at the heads of two lists,
and the text is the first half turned round with the second one behind it.

A key moves the caret (`move?`) or changes the text (`change?`), or it means nothing to the
editor.  Letters do not come as keys, and lines are as long as they are: they do not wrap.
-/

namespace StageScript

/-- A text with a caret in it. -/
structure Editor where
  /-- The characters before the caret, the nearest one first. -/
  before : List Char
  behind : List Char
  /-- The column that moves from line to line keep to, through shorter lines too. -/
  column : Option Nat
  deriving DecidableEq, Repr

namespace Editor

/-! ## 1. Texts -/

/-- The whole text. -/
def text (e : Editor) : String := String.ofList (e.before.reverse ++ e.behind)

/-- A text with the caret at its end. -/
def ofText (text : String) : Editor := ⟨text.toList.reverse, [], none⟩

theorem text_ofText (text : String) : (ofText text).text = text := by
  simp [ofText, Editor.text]

/-- The text does not depend on where it is divided. -/
theorem text_eq_of_halves {e e' : Editor}
    (h : e'.before.reverse ++ e'.behind = e.before.reverse ++ e.behind) : e'.text = e.text :=
  congrArg String.ofList h

/-- The part of a list within a line. -/
def lineOf (cs : List Char) : List Char := cs.takeWhile (· != '\n')

/-- What stands behind the end of a line. -/
def restOf (cs : List Char) : List Char := cs.dropWhile (· != '\n')

/-! ## 2. Moves -/

/-- One character back. -/
def left : Editor → Editor
  | ⟨c :: before, behind, _⟩ => ⟨before, c :: behind, none⟩
  | ⟨[], behind, _⟩ => ⟨[], behind, none⟩

/-- One character on. -/
def right : Editor → Editor
  | ⟨before, c :: behind, _⟩ => ⟨c :: before, behind, none⟩
  | ⟨before, [], _⟩ => ⟨before, [], none⟩

/-- To the start of the line. -/
def lineStart (e : Editor) : Editor :=
  ⟨restOf e.before, (lineOf e.before).reverse ++ e.behind, none⟩

/-- To the end of the line. -/
def lineEnd (e : Editor) : Editor :=
  ⟨(lineOf e.behind).reverse ++ e.before, restOf e.behind, none⟩

/-- To the start of the text. -/
def start (e : Editor) : Editor := ⟨[], e.before.reverse ++ e.behind, none⟩

/-- To the end of the text. -/
def finish (e : Editor) : Editor := ⟨e.behind.reverse ++ e.before, [], none⟩

/-- The column that a move from line to line aims at. -/
def aim (e : Editor) : Nat := e.column.getD (lineOf e.before).length

/-- From the start of a line on to a column, or to the end of the line if that comes first. -/
def toColumn (e : Editor) (n : Nat) : Editor :=
  let passed := (lineOf e.behind).take n
  ⟨passed.reverse ++ e.before, e.behind.drop passed.length, some n⟩

/-- To the line above; from the first line to the start of the text. -/
def up (e : Editor) : Editor :=
  match e.lineStart with
  | ⟨[], _, _⟩ => e.start
  | line => line.left.lineStart.toColumn e.aim

/-- To the line below; from the last line to the end of the text. -/
def down (e : Editor) : Editor :=
  match e.lineEnd with
  | ⟨_, [], _⟩ => e.finish
  | line => line.right.toColumn e.aim

theorem text_left (e : Editor) : e.left.text = e.text := by
  rcases e with ⟨_ | ⟨c, before⟩, behind, column⟩
  · rfl
  · exact text_eq_of_halves (by simp [left])

theorem text_right (e : Editor) : e.right.text = e.text := by
  rcases e with ⟨before, _ | ⟨c, behind⟩, column⟩
  · rfl
  · exact text_eq_of_halves (by simp [right])

theorem text_lineStart (e : Editor) : e.lineStart.text = e.text := by
  have hsplit : lineOf e.before ++ restOf e.before = e.before :=
    List.takeWhile_append_dropWhile
  refine text_eq_of_halves ?_
  simp only [lineStart]
  rw [← List.append_assoc, ← List.reverse_append, hsplit]

theorem text_lineEnd (e : Editor) : e.lineEnd.text = e.text := by
  have hsplit : lineOf e.behind ++ restOf e.behind = e.behind :=
    List.takeWhile_append_dropWhile
  refine text_eq_of_halves ?_
  simp only [lineEnd]
  rw [List.reverse_append, List.reverse_reverse, List.append_assoc, hsplit]

theorem text_start (e : Editor) : e.start.text = e.text := rfl

theorem text_finish (e : Editor) : e.finish.text = e.text :=
  text_eq_of_halves (by simp [finish])

theorem text_toColumn (e : Editor) (n : Nat) : (e.toColumn n).text = e.text := by
  obtain ⟨rest, hrest⟩ : (lineOf e.behind).take n <+: e.behind :=
    (List.take_prefix n _).trans (List.takeWhile_prefix _)
  refine text_eq_of_halves ?_
  simp only [toColumn]
  rw [List.reverse_append, List.reverse_reverse, List.append_assoc]
  generalize (lineOf e.behind).take n = passed at hrest ⊢
  rw [← hrest, List.drop_left]

theorem text_up (e : Editor) : e.up.text = e.text := by
  unfold up
  split
  · exact e.text_start
  · rw [text_toColumn, text_lineStart, text_left, text_lineStart]

theorem text_down (e : Editor) : e.down.text = e.text := by
  unfold down
  split
  · exact e.text_finish
  · rw [text_toColumn, text_right, text_lineEnd]

/-! ## 3. Changes -/

/-- Takes away the character before the caret. -/
def backspace (e : Editor) : Editor := ⟨e.before.tail, e.behind, none⟩

/-- Takes away the character behind the caret. -/
def delete (e : Editor) : Editor := ⟨e.before, e.behind.tail, none⟩

/-- Breaks the line. -/
def newline (e : Editor) : Editor := ⟨'\n' :: e.before, e.behind, none⟩

/-! ## 4. Keys -/

/-- What a key of the window does to the caret. -/
def move? : String → Option (Editor → Editor)
  | "Left" => some left
  | "Right" => some right
  | "Up" => some up
  | "Down" => some down
  | "Home" => some lineStart
  | "End" => some lineEnd
  | _ => none

/-- What a key of the window does to the text.  It counts as a change even where there is
nothing to take away. -/
def change? : String → Option (Editor → Editor)
  | "Backspace" => some backspace
  | "Delete" => some delete
  | "Enter" => some newline
  | _ => none

/-- A key that moves the caret leaves the text alone. -/
theorem text_of_move? {name : String} {move : Editor → Editor} (h : move? name = some move)
    (e : Editor) : (move e).text = e.text := by
  unfold move? at h
  split at h
  · obtain rfl := Option.some.inj h
    exact e.text_left
  · obtain rfl := Option.some.inj h
    exact e.text_right
  · obtain rfl := Option.some.inj h
    exact e.text_up
  · obtain rfl := Option.some.inj h
    exact e.text_down
  · obtain rfl := Option.some.inj h
    exact e.text_lineStart
  · obtain rfl := Option.some.inj h
    exact e.text_lineEnd
  · simp at h

/-- A key goes down in the editor.  It is told whether that counts as a change of the text. -/
def type (name : String) (e : Editor) : Editor × Bool :=
  match change? name, move? name with
  | some change, _ => (change e, true)
  | none, some move => (move e, false)
  | none, none => (e, false)

/-- What does not count as a change leaves the text alone. -/
theorem text_type {name : String} {e : Editor} (h : (e.type name).2 = false) :
    (e.type name).1.text = e.text := by
  unfold type at h ⊢
  split at h
  · simp at h
  · rename_i hmove
    exact text_of_move? hmove e
  · rfl

end Editor
end StageScript

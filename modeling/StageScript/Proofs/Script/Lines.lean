/-
# A script line by line

A script is read one line at a time, and no line knows of another.  What is between two line feeds
is a line, and the script is made of what the lines are by themselves, each with its number
(`Script.ofText_eq`).  Three things follow, and `compiled_line_by_line` puts them together.

* Two texts with a line feed between them make one script behind the other.  The second one is
  moved down by the lines of the first one, and so are the faults that its assignments keep
  (`Command.ofText_shift`).
* A line makes one statement, or one entry among those that are no command, or, if it is blank or
  a comment, nothing.
* What is no command may as well be a blank line.

The lines of a text are those of `List.splitOn`.  The function that the script is read with drops
an empty line at the end, which makes no difference because an empty line makes nothing.
-/
import Mathlib.Data.List.Basic
import StageScript.Proofs.Command.Place

namespace StageScript

/-- The statement, `n` lines further down. -/
def Statement.shift (n : Nat) (st : Statement) : Statement :=
  ⟨st.line + n, st.command.shift n⟩

/-- The line that is no command, `n` lines further down. -/
def Unrecognized.shift (n : Nat) (u : Unrecognized) : Unrecognized :=
  { u with line := u.line + n, reason := u.reason.shift n }

/-! ## 1. One line -/

namespace Text

/-- The line means nothing: it is blank, or a comment. -/
def IsIdle (text : List Char) : Prop :=
  trim text = [] ∨ Token.startsComment (trim text) = true

end Text

namespace Command

variable {line n : Nat} {text : List Char}

theorem ofLine?_eq_none_iff : ofLine? line text = none ↔ Text.IsIdle text := by
  simp only [ofLine?, Text.IsIdle, ← List.isEmpty_iff, ← Bool.or_eq_true]
  split <;> simp_all

/-- The commands of every frame are the guards of keys. -/
theorem isPerFrame_iff {c : Command} :
    c.isPerFrame = true ↔ ∃ key inner, c = .on (.key key) inner := by
  constructor
  · intro h
    unfold isPerFrame at h
    split at h
    · exact ⟨_, _, rfl⟩
    · simp at h
  · rintro ⟨key, inner, rfl⟩
    rfl

theorem ofLine?_shift (n line : Nat) (text : List Char) :
    ofLine? (line + n) text = (ofLine? line text).map (shiftResult n (.shift n)) := by
  simp only [ofLine?, ofText_shift]
  split <;> rfl

end Command

namespace Script

/-- The statement of a numbered line. -/
def statement? : List Char × Nat → Option Statement
  | (text, line) => match Command.ofLine? line text with
    | some (.ok c) => some ⟨line, c⟩
    | _ => none

/-- The entry of a numbered line that is no command. -/
def miss? : List Char × Nat → Option Unrecognized
  | (text, line) => match Command.ofLine? line text with
    | some (.error e) => some ⟨line, String.ofList (Text.trim text), e⟩
    | _ => none

theorem line_of_statement? {text : List Char} {line : Nat} {st : Statement}
    (h : statement? (text, line) = some st) : st.line = line := by
  simp only [statement?] at h
  split at h
  · rw [← Option.some.inj h]
  · simp at h

theorem line_of_miss? {text : List Char} {line : Nat} {u : Unrecognized}
    (h : miss? (text, line) = some u) : u.line = line := by
  simp only [miss?] at h
  split at h
  · rw [← Option.some.inj h]
  · simp at h

theorem statement?_shift (n line : Nat) (text : List Char) :
    statement? (text, line + n) = (statement? (text, line)).map (.shift n) := by
  simp only [statement?, Command.ofLine?_shift]
  rcases Command.ofLine? line text with _ | e | c <;> rfl

theorem miss?_shift (n line : Nat) (text : List Char) :
    miss? (text, line + n) = (miss? (text, line)).map (.shift n) := by
  simp only [miss?, Command.ofLine?_shift]
  rcases Command.ofLine? line text with _ | e | c <;> rfl

/-! ## 2. All lines -/

theorem ofLines_eq (line : Nat) (ls : List (List Char)) :
    ofLines line ls
      = ⟨(ls.zipIdx line).filterMap statement?, (ls.zipIdx line).filterMap miss?⟩ := by
  induction ls generalizing line with
  | nil => rfl
  | cons text ls ih =>
    simp only [ofLines, ih, List.zipIdx_cons, List.filterMap_cons, statement?, miss?]
    rcases Command.ofLine? line text with _ | e | c <;> rfl

end Script

/-- The lines that a text is read by are those between its line feeds, but for an empty one at the
end. -/
theorem Text.splitOn_eq_lines (cs : List Char) :
    cs.splitOn '\n' = lines cs ∨ cs.splitOn '\n' = lines cs ++ [[]] := by
  induction cs with
  | nil => exact .inr rfl
  | cons c cs ih =>
    rw [List.splitOn_cons_eq_if_modifyHead, lines]
    by_cases hc : c = '\n'
    · subst hc
      simp only [beq_self_eq_true, if_true]
      exact ih.imp (congrArg _) (congrArg _)
    · rw [if_neg (by simpa using hc), if_neg hc]
      cases hlines : lines cs with
      | nil =>
        rw [hlines] at ih
        rcases ih with ih | ih
        · exact absurd ih (List.splitOn_ne_nil _ _)
        · exact .inl (by rw [ih]; rfl)
      | cons l ls =>
        rw [hlines] at ih
        rcases ih with ih | ih
        · exact .inl (by rw [ih]; rfl)
        · exact .inr (by rw [ih]; rfl)

/-- The lines of a text, with their numbers. -/
def Text.numbered (source : String) : List (List Char × Nat) :=
  (source.toList.splitOn '\n').zipIdx 1

/-- **A script is made of what its lines are by themselves.** -/
theorem Script.ofText_eq (source : String) :
    ofText source
      = ⟨(Text.numbered source).filterMap statement?, (Text.numbered source).filterMap miss?⟩ := by
  unfold ofText Text.numbered
  rw [ofLines_eq]
  rcases Text.splitOn_eq_lines source.toList with h | h
  · rw [h]
  · rw [h, List.zipIdx_append, List.filterMap_append, List.filterMap_append]
    simp [statement?, miss?, Command.ofLine?, Text.trim, Text.trimLeft, Text.trimRight]

/-! ## 3. One script behind the other -/

/-- What numbered lines make, if each makes at most one thing, is moved down with them. -/
theorem filterMap_zipIdx_shift {α : Type} {f : List Char × Nat → Option α} {shift : α → α}
    {n : Nat} (h : ∀ text line, f (text, line + n) = (f (text, line)).map shift) (line : Nat)
    (ls : List (List Char)) :
    (ls.zipIdx (line + n)).filterMap f = ((ls.zipIdx line).filterMap f).map shift := by
  induction ls generalizing line with
  | nil => rfl
  | cons text ls ih =>
    have hnext : line + n + 1 = line + 1 + n := Nat.add_right_comm line n 1
    rw [List.zipIdx_cons, List.zipIdx_cons, List.filterMap_cons, List.filterMap_cons, h, hnext,
      ih (line + 1)]
    cases f (text, line) <;> rfl

theorem length_splitOn (cs : List Char) : (cs.splitOn '\n').length = cs.count '\n' + 1 := by
  induction cs with
  | nil => rfl
  | cons c cs ih =>
    rw [List.splitOn_cons_eq_if_modifyHead, List.count_cons]
    split
    · rw [List.length_cons, ih]
    · rw [List.length_modifyHead, ih]

/-- The lines of two texts with a line feed between them. -/
theorem Text.numbered_append (source later : String) :
    numbered (source ++ "\n" ++ later) = numbered source
      ++ (later.toList.splitOn '\n').zipIdx (1 + (source.toList.count '\n' + 1)) := by
  have hlist : (source ++ "\n" ++ later).toList = source.toList ++ '\n' :: later.toList := by
    simp [String.toList_append]
  rw [numbered, hlist, List.splitOn_append_cons_self, List.zipIdx_append, length_splitOn]
  rfl

/-- **Two texts with a line feed between them are one script behind the other.** -/
theorem Script.ofText_append (source later : String) :
    (ofText (source ++ "\n" ++ later)).statements
        = (ofText source).statements
          ++ (ofText later).statements.map (.shift (source.toList.count '\n' + 1)) ∧
      (ofText (source ++ "\n" ++ later)).unrecognized
        = (ofText source).unrecognized
          ++ (ofText later).unrecognized.map (.shift (source.toList.count '\n' + 1)) := by
  simp only [ofText_eq, Text.numbered_append, List.filterMap_append]
  refine ⟨congrArg _ ?_, congrArg _ ?_⟩
  · exact filterMap_zipIdx_shift (fun text line => statement?_shift _ line text) 1 _
  · exact filterMap_zipIdx_shift (fun text line => miss?_shift _ line text) 1 _

/-! ## 4. One thing a line -/

section Lines

variable {α : Type} {f : List Char × Nat → Option α} {number : α → Nat}
  (hf : ∀ {text line a}, f (text, line) = some a → number a = line)

include hf

theorem le_of_mem_filterMap {line : Nat} {ls : List (List Char)} {a : α}
    (h : a ∈ (ls.zipIdx line).filterMap f) : line ≤ number a := by
  obtain ⟨⟨text, k⟩, hmem, ha⟩ := List.mem_filterMap.mp h
  rw [hf ha]
  exact (List.mem_zipIdx hmem).1

/-- What numbered lines make is in the order of the lines. -/
theorem pairwise_filterMap_zipIdx (line : Nat) (ls : List (List Char)) :
    ((ls.zipIdx line).filterMap f).Pairwise fun a b => number a < number b := by
  induction ls generalizing line with
  | nil => exact .nil
  | cons text ls ih =>
    rw [List.zipIdx_cons, List.filterMap_cons]
    cases ha : f (text, line) with
    | none => exact ih (line + 1)
    | some a =>
      refine List.pairwise_cons.mpr ⟨?_, ih (line + 1)⟩
      intro b hb
      rw [hf ha]
      exact le_of_mem_filterMap hf hb

/-- Of what numbered lines make, that with the number of a line is what this line makes. -/
theorem filter_filterMap_zipIdx (line i : Nat) (ls : List (List Char)) :
    ((ls.zipIdx line).filterMap f).filter (fun a => number a == line + i)
      = (ls[i]?.bind fun text => f (text, line + i)).toList := by
  induction ls generalizing line i with
  | nil => rfl
  | cons text ls ih =>
    have htail : ((ls.zipIdx (line + 1)).filterMap f).filter (fun a => number a == line) = [] := by
      rw [List.filter_eq_nil_iff]
      intro a ha
      have hle := le_of_mem_filterMap hf ha
      simp only [beq_iff_eq]
      omega
    rw [List.zipIdx_cons, List.filterMap_cons]
    cases i with
    | zero =>
      rw [List.getElem?_cons_zero, Option.bind_some, Nat.add_zero]
      cases ha : f (text, line) with
      | none => exact htail
      | some a =>
        simp only [List.filter_cons, hf ha, beq_self_eq_true, if_true, htail]
        rfl
    | succ i =>
      have hnext : line + (i + 1) = line + 1 + i := by omega
      rw [List.getElem?_cons_succ, hnext]
      cases ha : f (text, line) with
      | none => exact ih (line + 1) i
      | some a =>
        have hne : (number a == line + 1 + i) = false := by
          rw [hf ha, beq_eq_false_iff_ne]
          omega
        simp only [List.filter_cons, hne, Bool.false_eq_true, if_false]
        exact ih (line + 1) i

end Lines

/-- The statements on a line. -/
def Script.statementsAt (s : Script) (line : Nat) : List Statement :=
  s.statements.filter (·.line == line)

/-- The entries of a line that is no command. -/
def Script.missesAt (s : Script) (line : Nat) : List Unrecognized :=
  s.unrecognized.filter (·.line == line)

/-- What a line by itself makes is all that there is on it. -/
theorem Script.at_ofText {source : String} {i : Nat} {text : List Char}
    (h : (source.toList.splitOn '\n')[i]? = some text) :
    (ofText source).statementsAt (i + 1) = (statement? (text, i + 1)).toList ∧
      (ofText source).missesAt (i + 1) = (miss? (text, i + 1)).toList := by
  have hstatements := filter_filterMap_zipIdx line_of_statement? 1 i (source.toList.splitOn '\n')
  have hmisses := filter_filterMap_zipIdx line_of_miss? 1 i (source.toList.splitOn '\n')
  rw [h, Option.bind_some, Nat.add_comm 1 i] at hstatements hmisses
  rw [statementsAt, missesAt, ofText_eq]
  exact ⟨hstatements, hmisses⟩

/-! ## 5. Blank lines -/

theorem not_mem_of_mem_splitOn {cs line : List Char} (h : line ∈ cs.splitOn '\n') :
    '\n' ∉ line := by
  induction cs generalizing line with
  | nil =>
    obtain rfl : line = [] := by simpa using h
    exact List.not_mem_nil
  | cons c cs ih =>
    rw [List.splitOn_cons_eq_if_modifyHead] at h
    split at h
    · rcases List.mem_cons.mp h with rfl | h
      · exact List.not_mem_nil
      · exact ih h
    · rename_i hc
      obtain ⟨first, rest, hsplit⟩ := List.exists_cons_of_ne_nil (List.splitOn_ne_nil '\n' cs)
      rw [hsplit] at h ih
      rcases List.mem_cons.mp h with rfl | h
      · intro hmem
        rcases List.mem_cons.mp hmem with rfl | hmem
        · simp at hc
        · exact ih List.mem_cons_self hmem
      · exact ih (List.mem_cons_of_mem _ h)

/-- Other lines in the same places have the same numbers. -/
theorem zipIdx_map_zipIdx (g : List Char × Nat → List Char) (line : Nat)
    (ls : List (List Char)) :
    ((ls.zipIdx line).map g).zipIdx line = (ls.zipIdx line).map fun x => (g x, x.2) := by
  induction ls generalizing line with
  | nil => rfl
  | cons text ls ih => simp only [List.zipIdx_cons, List.map_cons, ih]

namespace Script

/-- The line, or a blank one in its place if it is no command. -/
def blankLine (source : String) : List Char × Nat → List Char
  | (text, line) => if line ∈ (ofText source).unrecognized.map (·.line) then [] else text

/-- The text with its unrecognized lines left blank. -/
def blanked (source : String) : String :=
  String.ofList (['\n'].intercalate ((Text.numbered source).map (blankLine source)))

theorem numbered_blanked (source : String) :
    Text.numbered (blanked source)
      = (Text.numbered source).map fun x => (blankLine source x, x.2) := by
  have hlines : ∀ line ∈ (Text.numbered source).map (blankLine source), '\n' ∉ line := by
    intro line hline
    obtain ⟨⟨text, k⟩, hmem, rfl⟩ := List.mem_map.mp hline
    simp only [blankLine]
    split
    · exact List.not_mem_nil
    · exact not_mem_of_mem_splitOn (List.fst_mem_of_mem_zipIdx hmem)
  have hne : (Text.numbered source).map (blankLine source) ≠ [] := by
    simp [Text.numbered, List.zipIdx_eq_nil_iff, List.splitOn_ne_nil]
  rw [Text.numbered, blanked, String.toList_ofList, List.splitOn_intercalate _ hlines hne]
  exact zipIdx_map_zipIdx _ 1 _

/-- A line is no command if it makes an entry. -/
theorem mem_misses_iff {source : String} {text : List Char} {line : Nat}
    (h : (text, line) ∈ Text.numbered source) :
    line ∈ (ofText source).unrecognized.map (·.line) ↔ (miss? (text, line)).isSome = true := by
  simp only [ofText_eq, List.mem_map, List.mem_filterMap]
  constructor
  · rintro ⟨u, ⟨⟨text', line'⟩, hmem, hu⟩, rfl⟩
    obtain rfl := line_of_miss? hu
    -- there is one line of each number
    have hhere := (List.mk_mem_zipIdx_iff_le_and_getElem?_sub.mp h).2
    have hthere := (List.mk_mem_zipIdx_iff_le_and_getElem?_sub.mp hmem).2
    obtain rfl : text = text' := Option.some.inj (hhere.symm.trans hthere)
    rw [hu]
    rfl
  · intro hsome
    obtain ⟨u, hu⟩ := Option.isSome_iff_exists.mp hsome
    exact ⟨u, ⟨(text, line), h, hu⟩, line_of_miss? hu⟩

/-- A line that makes an entry makes no statement. -/
theorem statement?_of_miss? {x : List Char × Nat} (h : (miss? x).isSome = true) :
    statement? x = none := by
  obtain ⟨text, line⟩ := x
  simp only [miss?, statement?] at h ⊢
  generalize Command.ofLine? line text = r at h ⊢
  rcases r with _ | e | c
  · rfl
  · rfl
  · simp at h

/-- **What is no command may as well be a blank line.** -/
theorem ofText_blanked (source : String) :
    ofText (blanked source) = ⟨(ofText source).statements, []⟩ := by
  rw [ofText_eq, numbered_blanked, List.filterMap_map, List.filterMap_map]
  congr 1
  · rw [ofText_eq]
    refine List.filterMap_congr ?_
    rintro ⟨text, line⟩ hmem
    by_cases hmiss : (miss? (text, line)).isSome = true
    · simp only [Function.comp, blankLine, mem_misses_iff hmem, if_pos hmiss,
        statement?_of_miss? hmiss]
      rfl
    · simp only [Function.comp, blankLine, mem_misses_iff hmem, if_neg hmiss]
  · refine List.filterMap_eq_nil_iff.mpr ?_
    rintro ⟨text, line⟩ hmem
    by_cases hmiss : (miss? (text, line)).isSome = true
    · simp only [Function.comp, blankLine, mem_misses_iff hmem, if_pos hmiss]
      rfl
    · simp only [Function.comp, blankLine, mem_misses_iff hmem, if_neg hmiss]
      simpa using hmiss

/-! ## 6. The whole script -/

/-- What a line makes that means nothing, and what any other line makes. -/
theorem at_ofText_cases {source : String} {i : Nat} {text : List Char}
    (h : (source.toList.splitOn '\n')[i]? = some text) :
    (Text.IsIdle text →
        (ofText source).statementsAt (i + 1) = [] ∧ (ofText source).missesAt (i + 1) = []) ∧
      (¬ Text.IsIdle text →
        (∃ c, Command.ofLine? (i + 1) text = some (.ok c) ∧
          (ofText source).statementsAt (i + 1) = [⟨i + 1, c⟩] ∧
          (ofText source).missesAt (i + 1) = []) ∨
        (∃ e, Command.ofLine? (i + 1) text = some (.error e) ∧
          (ofText source).statementsAt (i + 1) = [] ∧
          (ofText source).missesAt (i + 1)
            = [⟨i + 1, String.ofList (Text.trim text), e⟩])) := by
  have hidle : Command.ofLine? (i + 1) text = none ↔ Text.IsIdle text :=
    Command.ofLine?_eq_none_iff
  rw [← hidle]
  obtain ⟨hstatements, hmisses⟩ := at_ofText h
  rw [hstatements, hmisses]
  simp only [statement?, miss?]
  rcases Command.ofLine? (i + 1) text with _ | e | c
  · exact ⟨fun _ => ⟨rfl, rfl⟩, fun hne => absurd rfl hne⟩
  · exact ⟨fun h => by simp at h, fun _ => .inr ⟨e, rfl, rfl, rfl⟩⟩
  · exact ⟨fun h => by simp at h, fun _ => .inl ⟨c, rfl, rfl, rfl⟩⟩

theorem exists_line_of_mem {α : Type} {f : List Char × Nat → Option α} {number : α → Nat}
    (hf : ∀ {text line a}, f (text, line) = some a → number a = line) {source : String} {a : α}
    (h : a ∈ (Text.numbered source).filterMap f) :
    ∃ i text, (source.toList.splitOn '\n')[i]? = some text ∧ number a = i + 1 := by
  obtain ⟨⟨text, line⟩, hmem, ha⟩ := List.mem_filterMap.mp h
  obtain ⟨hle, htext⟩ := List.mk_mem_zipIdx_iff_le_and_getElem?_sub.mp hmem
  refine ⟨line - 1, text, htext, ?_⟩
  rw [hf ha]
  omega

theorem mem_perFrame_iff {s : Script} {st : Statement} (h : st ∈ s.statements) :
    (st ∈ s.perFrame ↔ ∃ key c, st.command = .on (.key key) c) ∧
      (st ∈ s.setup ↔ ¬ ∃ key c, st.command = .on (.key key) c) := by
  rw [← Command.isPerFrame_iff, perFrame, setup, List.mem_filter, List.mem_filter]
  simp [h]

/-- **A script is compiled line by line.**  Two texts with a line feed between them are one script
behind the other, and the second one is moved down by the lines of the first, with all the faults
in it.  A line that is blank or a comment makes nothing; any other line makes one statement or one
entry among those that are no command, and nothing else makes any.  Both lists are in the order of
the lines.  The statements of every frame are the guards of keys, and all others are those of the
setup.  With its unrecognized lines left blank, the text makes the same statements. -/
theorem compiled_line_by_line (source later : String) :
    ((ofText (source ++ "\n" ++ later)).statements
          = (ofText source).statements
            ++ (ofText later).statements.map (.shift (source.toList.count '\n' + 1)) ∧
        (ofText (source ++ "\n" ++ later)).unrecognized
          = (ofText source).unrecognized
            ++ (ofText later).unrecognized.map (.shift (source.toList.count '\n' + 1))) ∧
      (∀ i text, (source.toList.splitOn '\n')[i]? = some text →
        (Text.IsIdle text →
          (ofText source).statementsAt (i + 1) = [] ∧ (ofText source).missesAt (i + 1) = []) ∧
        (¬ Text.IsIdle text →
          (∃ c, Command.ofLine? (i + 1) text = some (.ok c) ∧
            (ofText source).statementsAt (i + 1) = [⟨i + 1, c⟩] ∧
            (ofText source).missesAt (i + 1) = []) ∨
          (∃ e, Command.ofLine? (i + 1) text = some (.error e) ∧
            (ofText source).statementsAt (i + 1) = [] ∧
            (ofText source).missesAt (i + 1)
              = [⟨i + 1, String.ofList (Text.trim text), e⟩]))) ∧
      (∀ st ∈ (ofText source).statements,
        ∃ i text, (source.toList.splitOn '\n')[i]? = some text ∧ st.line = i + 1) ∧
      (∀ u ∈ (ofText source).unrecognized,
        ∃ i text, (source.toList.splitOn '\n')[i]? = some text ∧ u.line = i + 1) ∧
      (ofText source).statements.Pairwise (fun st st' => st.line < st'.line) ∧
      (ofText source).unrecognized.Pairwise (fun u u' => u.line < u'.line) ∧
      (∀ st ∈ (ofText source).statements,
        (st ∈ (ofText source).perFrame ↔ ∃ key c, st.command = .on (.key key) c) ∧
        (st ∈ (ofText source).setup ↔ ¬ ∃ key c, st.command = .on (.key key) c)) ∧
      ofText (blanked source) = ⟨(ofText source).statements, []⟩ := by
  refine ⟨ofText_append source later, fun _ _ => at_ofText_cases, ?_, ?_, ?_, ?_,
    fun _ => mem_perFrame_iff, ofText_blanked source⟩
  · intro st hst
    rw [ofText_eq] at hst
    exact exists_line_of_mem line_of_statement? hst
  · intro u hu
    rw [ofText_eq] at hu
    exact exists_line_of_mem line_of_miss? hu
  · rw [ofText_eq]
    exact pairwise_filterMap_zipIdx line_of_statement? 1 _
  · rw [ofText_eq]
    exact pairwise_filterMap_zipIdx line_of_miss? 1 _

end Script
end StageScript

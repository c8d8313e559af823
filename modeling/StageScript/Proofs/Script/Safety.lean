/-
# Every text is read safely

A line is read by places in it that were found before: the lexer counts bytes, the readers remember
tokens, and the rest of a line is cut out at a byte, trimmed, and read again with its own count.  A
place that is wrong by one byte would be inside a character or behind the end.

None is wrong.  A fault of the lexer is at a byte of the text that it reads
(`Token.fault_lt_of_lexFrom`); the readers stay among the tokens (`Command.within_form`), and in
front of each of these the text can be cut (`Command.exists_cut_of_tokens`).  What is cut out is a
part of the text behind the bytes that are counted for it, so a text that is opened at any depth is
a part of its line (`Opens.exists_part`), and every fault is at one of its bytes or right behind
them (`SyntaxError.IsIn`).

The part may begin behind the byte that is counted for it, because blanks that are not ASCII are
tokens and are trimmed all the same.  So the count is a bound and not an equation.
-/
import StageScript.Proofs.Command.Cursor
import StageScript.Proofs.Command.Cuts
import StageScript.Proofs.Script.Lines

namespace StageScript

open Token (Line lexFrom)

/-! ## 1. Faults of the lexer -/

namespace Token

variable {c : Char} {cs : List Char} {f : Fault}

theorem fault_lt_of_textBody {size : Nat} (hsize : 0 < size) (h : textBody size cs = .error f) :
    f.offset < size + Text.byteLength cs := by
  have hbody {size : Nat} {cs : List Char}
      {g : List Char × Nat × List Char → List Char × Nat × List Char}
      (h : (textBody size cs).map g = .error f) : textBody size cs = .error f := by
    cases hread : textBody size cs with
    | ok r => rw [hread] at h; simp [Except.map] at h
    | error f' => rw [hread] at h; exact congrArg Except.error (Except.error.inj h)
  fun_induction textBody size cs with
  | case1 =>
    obtain rfl := Except.error.inj h
    simpa using hsize
  | case2 => simp at h
  | case3 =>
    obtain rfl := Except.error.inj h
    exact Nat.add_pos_left hsize _
  | case4 size e cs =>
    obtain rfl := Except.error.inj h
    have hbackslash : ('\\' : Char).utf8Size = 1 := rfl
    have he := e.utf8Size_pos
    simp only [Text.byteLength_cons]
    omega
  | case5 size e cs d he _ ih =>
    have hbackslash : ('\\' : Char).utf8Size = 1 := rfl
    have hlt := ih (Nat.add_pos_left hsize _) (hbody h)
    have hpos := e.utf8Size_pos
    simp only [Text.byteLength_cons]
    omega
  | case6 size c cs _ _ ih =>
    have hlt := ih (Nat.add_pos_left hsize _) (hbody h)
    simp only [Text.byteLength_cons]
    omega

/-- Only a quoted text can be at fault. -/
theorem fault_lt_of_scan (h : scan c cs = .error f) : f.offset < Text.byteLength (c :: cs) := by
  have hquote : c = '"' := by
    by_contra hne
    obtain ⟨l, hl⟩ := exists_scan_of_ne hne cs
    rw [hl] at h
    simp at h
  subst hquote
  cases hbody : textBody 1 cs with
  | ok r => simp [scan, hbody, Except.map] at h
  | error f' =>
    simp only [scan, if_pos, hbody, Except.map] at h
    obtain rfl := Except.error.inj h
    exact fault_lt_of_textBody Nat.one_pos hbody

/-- **A fault of the lexer is at a byte of its text.** -/
theorem fault_lt_of_lexFrom {offset : Nat} (h : lexFrom offset cs = .error f) :
    f.offset < offset + Text.byteLength cs := by
  -- on the length: behind a token stands less than the text
  induction hn : cs.length using Nat.strongRecOn generalizing offset cs with
  | ind n ih =>
  subst hn
  cases cs with
  | nil => simp [lexFrom] at h
  | cons c cs =>
    cases hblank : Text.isAsciiBlank c with
    | true =>
      rw [lexFrom_blank hblank] at h
      have hlt := ih cs.length (by simp) h rfl
      rw [Text.byteLength_cons, utf8Size_of_isAsciiBlank hblank]
      omega
    | false =>
      cases hcomment : startsComment (c :: cs) with
      | true =>
        rw [lexFrom, if_neg (by simp [hblank]), if_pos hcomment] at h
        simp at h
      | false =>
        cases hscan : scan c cs with
        | error f' =>
          rw [lexFrom_of_scan_error hblank hcomment hscan] at h
          obtain rfl := Except.error.inj h
          exact Nat.add_lt_add_left (fault_lt_of_scan hscan) offset
        | ok l =>
          rw [lexFrom_of_scan hblank hcomment hscan] at h
          obtain ⟨span, htakes⟩ := exists_takes_of_scan hblank hscan
          have hless : l.rest.length < (c :: cs).length :=
            Nat.lt_succ_of_le (rest_length_le_of_scan hscan)
          have hrest : lexFrom (offset + l.size) l.rest = .error f := by
            cases hread : lexFrom (offset + l.size) l.rest with
            | ok l' => simp [hread, Except.map] at h
            | error f' => simpa [hread, Except.map] using h
          have hlt := ih _ hless hrest rfl
          rw [htakes.text, Text.byteLength_append, ← htakes.size]
          omega

end Token

/-! ## 2. Faults in a line -/

/-- The fault is one of reading, in this line, at one of its bytes or right behind them. -/
structure SyntaxError.IsIn (line length : Nat) (e : SyntaxError) : Prop where
  code : e.code.text ∈ ["L001", "L002", "L003", "P001", "P002"]
  line_eq : e.line = line
  pos : 1 ≤ e.column
  le : e.column ≤ length + 1

namespace SyntaxError

theorem code_text_mem (e : SyntaxError) :
    e.code.text ∈ ["L001", "L002", "L003", "P001", "P002"] := by
  have hcode := e.cause.isLineFault_code
  rw [code]
  generalize e.cause.code = k at hcode ⊢
  cases k <;> revert hcode <;> decide

/-- A fault at a byte of a text, or where it ends. -/
theorem isIn_of_le {cause : Cause} {line base offset length : Nat} (h : base + offset ≤ length) :
    (SyntaxError.mk cause line (base + offset + 1)).IsIn line length where
  code := code_text_mem _
  line_eq := rfl
  pos := Nat.succ_pos _
  le := Nat.succ_le_succ h

theorem IsIn.mono {line length length' : Nat} {e : SyntaxError} (h : e.IsIn line length)
    (hle : length ≤ length') : e.IsIn line length' :=
  ⟨h.code, h.line_eq, h.pos, h.le.trans (Nat.succ_le_succ hle)⟩

end SyntaxError

namespace Command

variable {src : List Char} {l : Line} {us : List Token} {p : Place} {line base : Nat}
  {e : SyntaxError}

/-- The rest of a line can be cut out in front of each token, and where the tokens stop. -/
theorem exists_rest (h : lexFrom 0 src = .ok l) (hus : us <:+ l.tokens) (hp : p.stop = l.stop) :
    ∃ pre cut comment, src = pre ++ (cut ++ comment) ∧ p.offset us = Text.byteLength pre
      ∧ Text.slice? src (p.offset us) l.stop = some cut ∧ remainder src p us = Text.trim cut := by
  obtain ⟨ts, htokens⟩ := hus
  obtain ⟨before, body, comment, hcut⟩ := exists_cut_of_tokens h htokens.symm
  obtain ⟨pre, cut, hsrc, hoffset, -, hslice, -⟩ := hcut.exists_slice hp
  refine ⟨pre, cut, comment, hsrc, hoffset, hp ▸ hslice, ?_⟩
  rw [remainder, hslice, Option.getD_some]

/-- What is cut out and trimmed stands behind the bytes that are counted for it. -/
theorem exists_part (h : lexFrom 0 src = .ok l) (hus : us <:+ l.tokens) (hp : p.stop = l.stop) :
    ∃ before behind, src = before ++ (remainder src p us ++ behind)
      ∧ p.offset us ≤ Text.byteLength before := by
  obtain ⟨pre, cut, comment, hsrc, hoffset, -, hremainder⟩ := exists_rest h hus hp
  obtain ⟨blanks, blanks', hcut⟩ := Text.exists_eq_trim cut
  refine ⟨pre ++ blanks, blanks' ++ comment, ?_, ?_⟩
  · rw [hremainder]
    conv_lhs => rw [hsrc, hcut]
    simp only [List.append_assoc]
  · rw [hoffset, Text.byteLength_append]
    exact Nat.le_add_right _ _

theorem offset_add_byteLength_remainder_le (h : lexFrom 0 src = .ok l) (hus : us <:+ l.tokens)
    (hp : p.stop = l.stop) :
    p.offset us + Text.byteLength (remainder src p us) ≤ Text.byteLength src := by
  obtain ⟨before, behind, hsrc, hoffset⟩ := exists_part h hus hp
  conv_rhs => rw [hsrc]
  simp only [Text.byteLength_append]
  omega

theorem isIn_of_lex (h : Token.lex line base src = .error e) :
    e.IsIn line (base + Text.byteLength src) := by
  unfold Token.lex at h
  cases hlex : lexFrom 0 src with
  | ok l => simp [hlex, Except.mapError] at h
  | error f =>
    have hlt := Token.fault_lt_of_lexFrom hlex
    rw [hlex] at h
    obtain rfl := Except.error.inj h
    exact SyntaxError.isIn_of_le (by omega)

/-- A fault where an end of the tokens begins. -/
theorem isIn_fault (h : lexFrom 0 src = .ok l) (hus : us <:+ l.tokens)
    (cause : SyntaxError.Cause) :
    (Place.fault ⟨line, base, l.stop⟩ us cause).IsIn line (base + Text.byteLength src) := by
  have hle := offset_add_byteLength_remainder_le (p := ⟨line, base, l.stop⟩) h hus rfl
  exact SyntaxError.isIn_of_le (Nat.add_le_add_left (Nat.le_of_add_right_le hle) base)

theorem isIn_of_within {α : Type} {R : α → Prop} {x : Except SyntaxError α}
    (h : lexFrom 0 src = .ok l) (hx : Within ⟨line, base, l.stop⟩ l.tokens R x)
    (he : x = .error e) : e.IsIn line (base + Text.byteLength src) := by
  cases hx with
  | ok _ => simp at he
  | error cause hus =>
    obtain rfl := Except.error.inj he
    exact isIn_fault h hus cause

/-- A text that is no expression. -/
theorem isIn_of_ofText_expr (h : Expr.ofText line base src = .error e) :
    e.IsIn line (base + Text.byteLength src) := by
  rw [Expr.ofText_eq_whole] at h
  cases hlex : Token.lex line base src with
  | error f =>
    rw [hlex] at h
    obtain rfl : f = e := Except.error.inj h
    exact isIn_of_lex hlex
  | ok l =>
    rw [hlex] at h
    have hwhole := Expr.stays_whole ⟨line, base, l.stop⟩ l.tokens
    exact isIn_of_within (Token.lex_eq_ok_iff.mp hlex)
      (hwhole.map (S := fun _ => True) fun _ _ => trivial) h

/-- The fault that is kept of the rest of a line. -/
theorem isIn_of_sourceOf (h : lexFrom 0 src = .ok l) (hus : us <:+ l.tokens)
    (he : (Abreast.sourceOf src ⟨line, base, l.stop⟩ us).keptFault? = some e) :
    e.IsIn line (base + Text.byteLength src) := by
  have hle := offset_add_byteLength_remainder_le (p := ⟨line, base, l.stop⟩) h hus rfl
  simp only [ExprSource.keptFault?, Abreast.sourceOf] at he
  split at he
  · simp at he
  · rename_i f hparsed
    obtain rfl := Option.some.inj he
    split at hparsed
    · obtain rfl := Except.error.inj hparsed
      exact isIn_fault h hus _
    · exact (isIn_of_ofText_expr hparsed).mono (by omega)

/-- The fault of a text: the one for which it is refused, or the one that its command keeps. -/
def faultOf? : Except SyntaxError Command → Option SyntaxError
  | .error e => some e
  | .ok c => c.keptFault?

/-- **Every fault of a text is in it**, behind any number of triggers. -/
theorem isIn_of_ofText (line base : Nat) (src : List Char)
    (h : faultOf? (ofText line base src) = some e) :
    e.IsIn line (base + Text.byteLength src) := by
  -- on the length: what is behind a trigger is shorter than the text
  induction hn : src.length using Nat.strongRecOn generalizing base src with
  | ind n ih =>
  subst hn
  rw [ofText] at h
  cases hlex : Token.lex line base src with
  | error f =>
    rw [hlex] at h
    obtain rfl := Option.some.inj h
    exact isIn_of_lex hlex
  | ok l =>
    have hfrom := Token.lex_eq_ok_iff.mp hlex
    have hform := within_form src ⟨line, base, l.stop⟩ l.tokens
    rw [hlex] at h
    dsimp only at h
    generalize form src ⟨line, base, l.stop⟩ l.tokens = x at hform h
    cases hform with
    | error cause hus =>
      obtain rfl := Option.some.inj h
      exact isIn_fault hfrom hus cause
    | @ok x hx =>
      obtain ⟨f, us⟩ := x
      obtain ⟨hus, hkept⟩ : us <:+ l.tokens ∧ f.KeepsRest src ⟨line, base, l.stop⟩ l.tokens := hx
      cases f with
      | action a =>
        have hend := Reader.stays_endOfLine ⟨line, base, l.stop⟩ us
        dsimp only at h
        generalize Reader.endOfLine ⟨line, base, l.stop⟩ us = y at hend h
        cases hend with
        | error cause hvs =>
          obtain rfl := Option.some.inj h
          exact isIn_fault hfrom (hvs.trans hus) cause
        | ok _ =>
          obtain ⟨vs, hvs, hsource⟩ := hkept e h
          exact isIn_of_sourceOf hfrom hvs hsource
      | trigger t =>
        dsimp only at h
        split at h
        · rename_i hinner
          have hle := offset_add_byteLength_remainder_le (p := ⟨line, base, l.stop⟩) hfrom hus rfl
          refine (ih _ hinner.2 (base + Place.offset ⟨line, base, l.stop⟩ us) _ ?_ rfl).mono
            (by omega)
          split at h
          · rename_i hread
            rw [hread]
            exact h
          · rename_i hread
            rw [hread]
            exact h
        · obtain rfl := Option.some.inj h
          exact isIn_fault hfrom hus _

/-! ## 3. Texts that are opened -/

/-- The texts that reading a line can open, with the bytes that are counted before them: the line,
and the rest of an opened text from any of its tokens on.  The command behind a trigger and the
right side of an assignment are such a rest. -/
inductive Opens (line : Nat) (text : List Char) : Nat → List Char → Prop
  | line : Opens line text 0 text
  | rest {base : Nat} {src : List Char} {l : Line} {us : List Token} (h : Opens line text base src)
      (hlex : Token.lex line base src = .ok l) (hus : us <:+ l.tokens) :
      Opens line text (base + Place.offset ⟨line, base, l.stop⟩ us)
        (remainder src ⟨line, base, l.stop⟩ us)

/-- **What is opened is a part of the line** behind the bytes that are counted for it. -/
theorem Opens.exists_part {text : List Char} (h : Opens line text base src) :
    ∃ before behind, text = before ++ (src ++ behind) ∧ base ≤ Text.byteLength before := by
  induction h with
  | line => exact ⟨[], [], by simp, Nat.le_refl _⟩
  | @rest base src l us _ hlex hus ih =>
    obtain ⟨before, behind, htext, hbase⟩ := ih
    obtain ⟨pre, post, hsrc, hoffset⟩ := Command.exists_part (p := ⟨line, base, l.stop⟩)
      (Token.lex_eq_ok_iff.mp hlex) hus rfl
    refine ⟨before ++ pre, post ++ behind, ?_, ?_⟩
    · conv_lhs => rw [htext, hsrc]
      simp only [List.append_assoc]
    · rw [Text.byteLength_append]
      exact Nat.add_le_add hbase hoffset

/-- The text is read without a look outside: it is a part of the line; it can be cut from each of
its tokens and from where they stop, which is what is done for its rest; and its form, or the
expression that it is, leaves an end of the tokens or is at fault where one begins. -/
structure ReadInside (line : Nat) (text : List Char) (base : Nat) (src : List Char) : Prop where
  part : ∃ before behind, text = before ++ (src ++ behind) ∧ base ≤ Text.byteLength before
  slice : ∀ l us, Token.lex line base src = .ok l → us <:+ l.tokens →
    ∃ pre cut comment, src = pre ++ (cut ++ comment)
      ∧ Place.offset ⟨line, base, l.stop⟩ us = Text.byteLength pre
      ∧ Text.slice? src (Place.offset ⟨line, base, l.stop⟩ us) l.stop = some cut
      ∧ remainder src ⟨line, base, l.stop⟩ us = Text.trim cut
  form : ∀ l, Token.lex line base src = .ok l →
    Within ⟨line, base, l.stop⟩ l.tokens (fun y => y.2 <:+ l.tokens)
      (Command.form src ⟨line, base, l.stop⟩ l.tokens)
  expr : ∀ l, Token.lex line base src = .ok l →
    Within ⟨line, base, l.stop⟩ l.tokens (fun y => y.2 <:+ l.tokens)
      (Expr.whole ⟨line, base, l.stop⟩ l.tokens)

theorem Opens.readInside {text : List Char} (h : Opens line text base src) :
    ReadInside line text base src where
  part := h.exists_part
  slice _ _ hlex hus := exists_rest (Token.lex_eq_ok_iff.mp hlex) hus rfl
  form l _ := (within_form _ _ l.tokens).mono (List.suffix_refl _) fun _ hy => hy.1
  expr l _ := (Expr.stays_whole _ l.tokens).mono (List.suffix_refl _) fun _ hy => hy.1

end Command

/-! ## 4. Scripts -/

namespace Script

/-- **Every text is read safely.**  Whatever is opened in a line of it, at any depth, is read
without a look outside.  The reason of each line that is no command, and the fault that is kept in
each assignment, has a code of reading, the number of its own line, and a column between the first
byte of the trimmed line and the one behind its last. -/
theorem every_text_is_read_safely (source : String) :
    (∀ text line base src, (text, line) ∈ Text.numbered source →
        Command.Opens line (Text.trim text) base src →
        Command.ReadInside line (Text.trim text) base src) ∧
      (∀ u ∈ (ofText source).unrecognized, ∃ text, (text, u.line) ∈ Text.numbered source ∧
        u.reason.IsIn u.line (Text.byteLength (Text.trim text))) ∧
      (∀ st ∈ (ofText source).statements, ∃ text, (text, st.line) ∈ Text.numbered source ∧
        ∀ e, st.command.keptFault? = some e →
          e.IsIn st.line (Text.byteLength (Text.trim text))) := by
  refine ⟨fun _ _ _ _ _ hopens => hopens.readInside, ?_, ?_⟩
  · intro u hu
    rw [ofText_eq] at hu
    obtain ⟨⟨text, line⟩, hmem, hmiss⟩ := List.mem_filterMap.mp hu
    obtain rfl := line_of_miss? hmiss
    refine ⟨text, hmem, ?_⟩
    simp only [miss?, Command.ofLine?] at hmiss
    split at hmiss
    · rename_i e hread
      split_ifs at hread
      have hin := Command.isIn_of_ofText u.line 0 (Text.trim text) (e := e)
        (congrArg Command.faultOf? (Option.some.inj hread))
      rw [← Option.some.inj hmiss]
      rwa [Nat.zero_add] at hin
    · simp at hmiss
  · intro st hst
    rw [ofText_eq] at hst
    obtain ⟨⟨text, line⟩, hmem, hstatement⟩ := List.mem_filterMap.mp hst
    obtain rfl := line_of_statement? hstatement
    refine ⟨text, hmem, ?_⟩
    intro e he
    simp only [statement?, Command.ofLine?] at hstatement
    split at hstatement
    · rename_i c hread
      split_ifs at hread
      rw [← Option.some.inj hstatement] at he
      have hin := Command.isIn_of_ofText st.line 0 (Text.trim text)
        ((congrArg Command.faultOf? (Option.some.inj hread)).trans he)
      rwa [Nat.zero_add] at hin
    · simp at hstatement

end Script
end StageScript

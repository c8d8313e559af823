/-
# Malformed right sides

A line that begins like an assignment of a number is one, whatever is on its right side: nothing,
characters outside the language, literals, more equals signs.  What is there is kept as a text, and
beside it either the expression that the text is or the fault of its reading; the fault waits until
the assignment is carried out.  Then the target becomes zero, and one diagnostic says why.

The first tokens decide the form (`Assigns`), and the rest of the line is cut out behind them
(`Cut`), so the right side is the text behind the equals sign up to a comment.  It is read from its
characters again, further right in the line, and being further right changes no tree and only the
columns of faults (`Expr.ofText_move`).
-/
import StageScript.Proofs.Command.Cuts
import StageScript.Proofs.Command.Expressions
import StageScript.Proofs.Command.Place
import StageScript.Proofs.Stage.Edits
import StageScript.Proofs.Stage.Variables

namespace StageScript

open Token (Kind Line Spelled lexFrom strays)
open StageScript.Expr (kinds kinds_append exists_of_kinds_cons exists_of_kinds_singleton)

/-! ## 1. A line and its trimmed text -/

namespace Token

variable {cs blanks : List Char} {b : Char} {l : Line}

/-- No token but a character outside the language ends with a blank. -/
theorem Spelled.eq_of_getLast? {k : Kind} (h : Spelled (cs ++ [b]) k)
    (hb : Text.isBlank b = true) : cs = [] ∧ ∃ s, k = .stray s := by
  by_cases hstray : ∃ s, k = .stray s
  · obtain ⟨s, rfl⟩ := hstray
    generalize hspan : cs ++ [b] = span at h
    cases h with
    | stray h => exact ⟨(List.append_eq_singleton_iff.mp hspan).elim (·.1) (by simp), _, rfl⟩
  · have hsolid := (h.solid fun s hs => hstray ⟨s, hs⟩).2
    rw [List.getLast?_concat, Option.any_some, hb] at hsolid
    exact absurd hsolid Bool.false_ne_true

theorem placed_append (offset : Nat) (ps qs : List Piece) :
    placed offset (ps ++ qs)
      = placed offset ps ++ placed (offset + Text.byteLength (ps.flatMap Piece.chars)) qs := by
  induction ps generalizing offset with
  | nil => rfl
  | cons p ps ih =>
    rw [List.cons_append, placed, ih, placed, List.flatMap_cons, Text.byteLength_append,
      Nat.add_assoc, List.cons_append]

/-- **A text without the blank behind it** has the same tokens, but for one outside the language. -/
theorem exists_lexFrom_of_append_blank (hb : Text.isBlank b = true)
    (h : lexFrom 0 (cs ++ [b]) = .ok l) :
    ∃ l' us, lexFrom 0 cs = .ok l' ∧ l.tokens = l'.tokens ++ us
      ∧ ∀ t ∈ us, ∃ c, t.kind = .stray c := by
  obtain ⟨pieces, gap, rest, hdivides, rfl⟩ := exists_divides h
  have htext := hdivides.text
  -- the pieces stay where the blank is taken off what is behind them
  have hkept {gap' rest' : List Char} (hle : gap' ++ rest' <+: gap ++ rest)
      (hcs : cs = pieces.flatMap Piece.chars ++ (gap' ++ rest'))
      (hgap : ∀ c ∈ gap', Text.isAsciiBlank c = true)
      (hrest : rest' = [] ∨ ['/', '/'] <+: rest') :
      ∃ l' us, lexFrom 0 cs = .ok l' ∧ placed 0 pieces = l'.tokens ++ us
        ∧ ∀ t ∈ us, ∃ c, t.kind = .stray c :=
    ⟨_, [], hcs ▸ (hdivides.cut hle hgap hrest).lexFrom 0, (List.append_nil _).symm,
      List.forall_mem_nil _⟩
  rcases List.eq_nil_or_concat rest with rfl | ⟨init, b', rfl⟩
  · rcases List.eq_nil_or_concat gap with rfl | ⟨init, b', rfl⟩
    · rcases List.eq_nil_or_concat pieces with rfl | ⟨ps, q, rfl⟩
      · simp at htext
      · -- the blank is the whole of the last piece
        have hq := hdivides.stands ps q [] (by simp)
        obtain ⟨init, b', hspan⟩ :=
          (List.eq_nil_or_concat q.span).resolve_left hq.nonempty
        rw [List.concat_eq_append] at hspan
        have hcs : cs = ps.flatMap Piece.chars ++ (q.gap ++ init) ∧ b = b' := by
          have hlast : cs ++ [b] = (ps.flatMap Piece.chars ++ (q.gap ++ init)) ++ [b'] := by
            rw [htext]
            simp [Piece.chars, hspan]
          exact List.append_inj' hlast rfl |>.imp_right (by simp)
        obtain ⟨hcs, rfl⟩ := hcs
        have hspelled := hq.spelled
        rw [hspan] at hspelled
        obtain ⟨rfl, s, hs⟩ := hspelled.eq_of_getLast? hb
        have hless : Divides cs ps q.gap [] :=
          { text := hcs
            blank := hq.gap
            ending := .inl rfl
            stands := fun bs p as heq => by
              refine (hdivides.stands bs p (as ++ [q]) (by simp [heq])).mono ?_
              exact ⟨[b], by simp [Piece.chars, hspan]⟩ }
        rw [List.concat_eq_append, placed_append]
        exact ⟨_, _, hless.lexFrom 0, rfl, List.forall_mem_singleton.mpr ⟨s, hs⟩⟩
    · obtain ⟨hcs, hb'⟩ : cs = pieces.flatMap Piece.chars ++ (init ++ []) ∧ [b] = [b'] := by
        refine List.append_inj' ?_ rfl
        rw [htext]
        simp
      refine hkept ?_ hcs (fun c hc => hdivides.blank c (by simp [hc])) (.inl rfl)
      simp
  · obtain ⟨hcs, hb'⟩ : cs = pieces.flatMap Piece.chars ++ (gap ++ init) ∧ [b] = [b'] := by
      refine List.append_inj' ?_ rfl
      rw [htext]
      simp
    obtain rfl : b = b' := List.singleton_inj.mp hb'
    refine hkept ?_ hcs hdivides.blank (.inr ?_)
    · simp
    · -- the slashes of the comment are not the blank
      rw [List.concat_eq_append] at hdivides
      rcases List.prefix_concat_iff.mp (hdivides.ending.resolve_left (by simp)) with heq | hle
      · have hlast := congrArg List.getLast? heq
        rw [List.getLast?_concat] at hlast
        obtain rfl : '/' = b := Option.some.inj hlast
        exact absurd hb (by decide)
      · exact hle

/-- A text without the blanks behind it. -/
theorem exists_lexFrom_of_append_blanks (hblanks : ∀ c ∈ blanks, Text.isBlank c = true)
    (h : lexFrom 0 (cs ++ blanks) = .ok l) :
    ∃ l' us, lexFrom 0 cs = .ok l' ∧ l.tokens = l'.tokens ++ us
      ∧ ∀ t ∈ us, ∃ c, t.kind = .stray c := by
  induction blanks using List.reverseRecOn generalizing l with
  | nil =>
    rw [List.append_nil] at h
    exact ⟨l, [], h, (List.append_nil _).symm, List.forall_mem_nil _⟩
  | append_singleton blanks b ih =>
    rw [← List.append_assoc] at h
    obtain ⟨l₁, us₁, h₁, htokens₁, hstray₁⟩ :=
      exists_lexFrom_of_append_blank (hblanks b (by simp)) h
    obtain ⟨l₂, us₂, h₂, htokens₂, hstray₂⟩ := ih (fun c hc => hblanks c (by simp [hc])) h₁
    refine ⟨l₂, us₂ ++ us₁, h₂, by rw [htokens₁, htokens₂, List.append_assoc], ?_⟩
    exact List.forall_mem_append.mpr ⟨hstray₂, hstray₁⟩

/-- **A line that begins with tokens of the language** begins with them when it is trimmed. -/
theorem exists_lexFrom_trim {text : List Char} {head more : List Kind}
    (h : lexFrom 0 text = .ok l) (hkinds : kinds l.tokens = head ++ more) (hne : head ≠ [])
    (hhead : ∀ k ∈ head, ∀ c, k ≠ .stray c) :
    ∃ l' more', lexFrom 0 (Text.trim text) = .ok l' ∧ kinds l'.tokens = head ++ more' := by
  obtain ⟨k, head, rfl⟩ := List.exists_cons_of_ne_nil hne
  obtain ⟨o, ts, htokens, -⟩ := exists_of_kinds_cons hkinds
  -- blanks in front of the line are passed over, since a token of one would be the first
  have hblank (before rest : List Char) (htext : text = before ++ rest)
      (hbefore : ∀ c ∈ before, Text.isBlank c = true) :
      ∃ l₁, lexFrom 0 rest = .ok l₁ ∧ kinds l₁.tokens = k :: head ++ more := by
    rw [htext, lexFrom_between hbefore, Nat.zero_add, lexFrom_eq_move] at h
    cases hrest : lexFrom 0 rest with
    | error f => simp [hrest, Except.mapError, Except.map] at h
    | ok l₁ =>
      simp only [hrest, Except.mapError, Except.map, Except.ok.injEq] at h
      refine ⟨l₁, rfl, ?_⟩
      have hnone : strays 0 before = [] := by
        by_contra hne
        obtain ⟨t, us, ht⟩ := List.exists_cons_of_ne_nil hne
        obtain ⟨c, hc⟩ := isStray_of_mem_strays (ht ▸ List.mem_cons_self : t ∈ strays 0 before)
        have hfirst := htokens
        rw [← h, Line.behind, ht, List.cons_append] at hfirst
        obtain rfl := (List.cons.inj hfirst).1
        exact hhead k List.mem_cons_self c hc
      rw [← hkinds, ← h, Line.behind, hnone, List.nil_append]
      simp [Line.move, kinds, Token.move]
  rcases Text.eq_trim text with hall | ⟨-, htext⟩
  · obtain ⟨l₁, h₁, hkinds₁⟩ := hblank text [] (List.append_nil _).symm hall
    rw [lexFrom] at h₁
    rw [← Except.ok.inj h₁] at hkinds₁
    simp at hkinds₁
  · obtain ⟨l₁, h₁, hkinds₁⟩ := hblank _ _ htext fun _ => Text.isBlank_of_mem_blanksBefore
    obtain ⟨l₂, us, h₂, htokens₂, hstray⟩ :=
      exists_lexFrom_of_append_blanks (fun _ => Text.isBlank_of_mem_blanksBehind) h₁
    rw [htokens₂, kinds_append] at hkinds₁
    -- what was lost is outside the language, so the first tokens are among those that are left
    rcases List.append_eq_append_iff.mp hkinds₁ with ⟨lost, hlost, hus⟩ | ⟨left, hleft, -⟩
    · cases lost with
      | nil => exact ⟨l₂, [], h₂, by rw [hlost, List.append_nil, List.append_nil]⟩
      | cons k' lost =>
        obtain ⟨o', vs, rfl, -⟩ := exists_of_kinds_cons hus
        obtain ⟨c, hc⟩ := hstray _ List.mem_cons_self
        exact absurd hc (hhead k' (hlost ▸ List.mem_append_right _ List.mem_cons_self) c)
    · exact ⟨l₂, left, h₂, hleft⟩

end Token

/-! ## 2. The form of an assignment -/

namespace Command

/-- The first tokens of an assignment of a number, and what its right side makes of it. -/
inductive Assigns : List Kind → (ExprSource → Action) → Prop
  | name (name : String) : Assigns [.word name, .mark .equals] (.assign name)
  | property (entity : String) {prop : String} (h : (Entity.Slot.ofName? prop).isSome = true) :
      Assigns [.word entity, .mark .dot, .word prop, .mark .equals]
        fun source => .setProperty entity prop (.number source)

variable {head more : List Kind} {assign : ExprSource → Action} {src : List Char} {p : Place}
  {ts us : List Token}

theorem propertyValue_of_slot {prop : String} (h : (Entity.Slot.ofName? prop).isSome = true)
    (src : List Char) : propertyValue src prop = PropertyValue.number <$> exprSource src := by
  have hmem : prop ∈ ["x", "y", "w", "h"] := by
    unfold Entity.Slot.ofName? at h
    split at h
    case h_5 => simp at h
    all_goals simp
  rw [propertyValue, if_pos hmem]

namespace Assigns

theorem ne_nil (h : Assigns head assign) : head ≠ [] := by
  cases h <;> simp

theorem ne_stray (h : Assigns head assign) : ∀ k ∈ head, ∀ c, k ≠ .stray c := by
  cases h <;> simp

/-- The text in front of the right side ends with the equals sign. -/
theorem exists_equals (h : Assigns head assign) (hts : kinds ts = head) {l : Line}
    {before body comment : List Char} (hcut : Cut src l ts us before body comment) :
    ∃ pre, before = pre ++ ['='] := by
  obtain ⟨t, ht, hkind⟩ : ∃ t, ts.getLast? = some t ∧ t.kind = .mark .equals := by
    have hlast : (kinds ts).getLast? = some (.mark .equals) := by
      rw [hts]
      cases h <;> rfl
    rwa [kinds, List.getLast?_map, Option.map_eq_some_iff] at hlast
  obtain ⟨pre, span, rfl, hspan⟩ := hcut.last t ht
  rw [hkind] at hspan
  cases hspan with
  | @mark c _ hc =>
    unfold Mark.ofChar? at hc
    split at hc
    case h_5 => exact ⟨pre, rfl⟩
    all_goals simp at hc

/-- **No right side is refused.**  Whatever is behind the first tokens, it is the right side. -/
theorem form_eq (h : Assigns head assign) (src : List Char) (p : Place) (hts : kinds ts = head)
    (us : List Token) :
    form src p (ts ++ us) = .ok (.action (assign (Abreast.sourceOf src p us)), []) := by
  have hsource : exprSource src p us = .ok (Abreast.sourceOf src p us, []) := rfl
  cases h with
  | name name =>
    obtain ⟨o, vs, rfl, hvs⟩ := exists_of_kinds_cons hts
    obtain ⟨o₁, rfl⟩ := exists_of_kinds_singleton hvs
    rw [List.cons_append, List.singleton_append, form_assign]
    exact Reader.map_eq_ok (Reader.map_eq_ok hsource (Action.assign name)) Form.action
  | @property entity prop hprop =>
    obtain ⟨o, vs, rfl, hvs⟩ := exists_of_kinds_cons hts
    obtain ⟨o₁, ws, rfl, hws⟩ := exists_of_kinds_cons hvs
    obtain ⟨o₂, xs, rfl, hxs⟩ := exists_of_kinds_cons hws
    obtain ⟨o₃, rfl⟩ := exists_of_kinds_singleton hxs
    simp only [List.cons_append, List.nil_append]
    rw [form_property, propertyValue_of_slot hprop]
    exact Reader.map_eq_ok (Reader.map_eq_ok (Reader.map_eq_ok hsource PropertyValue.number)
      (Action.setProperty entity prop)) Form.action

end Assigns

/-- Nothing is no expression. -/
theorem ofText_nil_ne_ok (line base : Nat) (e : Expr) : Expr.ofText line base [] ≠ .ok e := by
  intro h
  obtain ⟨l, hlex, hderives⟩ := Expr.ofText_eq_ok_iff.mp h
  obtain rfl : ⟨[], 0⟩ = l := by simpa [Token.lex, lexFrom, Except.mapError] using hlex
  obtain ⟨k, ks, hks, -⟩ := hderives.exists_cons
  simp at hks

/-- **The right side is what its text is by itself**, at another column. -/
theorem sourceOf_parsed (src : List Char) (line : Nat) (stop : Nat) (us : List Token) :
    let source := Abreast.sourceOf src ⟨line, 0, stop⟩ us
    let rest := remainder src ⟨line, 0, stop⟩ us
    source.text = String.ofList rest
      ∧ (∀ e, source.parsed = .ok e ↔ Expr.ofText line 0 rest = .ok e)
      ∧ (rest ≠ [] → ∃ d, source.parsed = (Expr.ofText line 0 rest).mapError (.indent d)) := by
  intro source rest
  by_cases hnil : rest = []
  · have hparsed : source.parsed = .error (Place.fault ⟨line, 0, stop⟩ us .missingExpression) :=
      if_pos (List.isEmpty_iff.mpr hnil)
    refine ⟨rfl, fun e => ?_, fun hne => absurd hnil hne⟩
    rw [hparsed, hnil]
    exact iff_of_false (by simp) (ofText_nil_ne_ok line 0 e)
  · have hparsed : source.parsed = (Expr.ofText line 0 rest).mapError
        (.indent (Place.offset ⟨line, 0, stop⟩ us)) := by
      have hread : source.parsed = Expr.ofText line (0 + Place.offset ⟨line, 0, stop⟩ us) rest :=
        if_neg (mt List.isEmpty_iff.mp hnil)
      rw [hread]
      exact Expr.ofText_move 0 _ line 0 rest
    refine ⟨rfl, fun e => ?_, fun _ => ⟨_, hparsed⟩⟩
    rw [hparsed]
    cases Expr.ofText line 0 rest <;> simp [Except.mapError]

end Command

/-! ## 3. A right side that is no expression -/

namespace Scene

/-- The number that an action assigns to, if the scene has it. -/
def target? (s : Scene) : Action → Option Float
  | .assign name _ => s.vars.get? name
  | .setProperty entity prop _ =>
    (s.entities.get? entity).bind fun e => (Entity.Slot.ofName? prop).bind e.slot?
  | _ => none

/-- The scene with another number in its place. -/
def aim (s : Scene) (x : Float) : Action → Scene
  | .assign name _ => { s with vars := s.vars.set name x }
  | .setProperty entity prop _ => s.alter entity (·.setNumber prop x)
  | _ => s

open Command (Assigns)

variable {s : Scene} {head : List Kind} {assign : ExprSource → Action} {source : ExprSource}
  {fault : SyntaxError}

/-- What is assigned to is there, and it can be given another number. -/
theorem exists_of_target? {entity prop : String} {v : PropertyValue}
    (h : (s.target? (.setProperty entity prop v)).isSome = true) (x : Float) :
    ∃ e slot e', s.entities.get? entity = some e ∧ Entity.Slot.ofName? prop = some slot
      ∧ e.setSlot? x slot = some e' := by
  obtain ⟨y, hy⟩ := Option.isSome_iff_exists.mp h
  obtain ⟨e, he, hslot⟩ := Option.bind_eq_some_iff.mp hy
  obtain ⟨slot, hname, hread⟩ := Option.bind_eq_some_iff.mp hslot
  cases hset : e.setSlot? x slot with
  | none => simp [Entity.slot?_of_setSlot_none hset] at hread
  | some e' => exact ⟨e, slot, e', he, hname, hset⟩

/-- **An assignment of what is no expression** assigns zero, and reports why. -/
theorem perform_of_malformed (h : Assigns head assign) (hfault : source.parsed = .error fault)
    (htarget : (s.target? (assign source)).isSome = true) (line : Nat) :
    s.perform line (assign source) = .done (s.aim 0 (assign source))
        [.reported (.ofError ⟨.malformed source.text fault.cause, line⟩)]
      ∧ (s.aim 0 (assign source)).target? (assign source) = some 0 := by
  have hvalue : s.sourceValue line source
      = (0, [.reported (.ofError ⟨.malformed source.text fault.cause, line⟩)]) := by
    rw [sourceValue, ExprSource.evaluate, hfault]
    rfl
  cases h with
  | name name =>
    have hcontains : s.vars.contains name = true := by
      rw [Variables.contains_eq_isSome]
      exact htarget
    refine ⟨?_, ?_⟩
    · rw [perform, if_pos hcontains, hvalue]
      rfl
    · show (s.vars.set name 0).get? name = some 0
      rw [Variables.get?_set, if_pos rfl]
  | @property entity prop hprop =>
    obtain ⟨e, slot, e', he, hname, hset⟩ := exists_of_target? htarget 0
    have hnumber : e.setNumber prop 0 = .ok e' := by
      simp only [Entity.setNumber, hname, hset]
    have haim : s.aim 0 (.setProperty entity prop (.number source))
        = { s with entities := s.entities.replace entity e' } := by
      simp only [aim, alter, he, hnumber]
    refine ⟨?_, ?_⟩
    · rw [haim]
      simp only [perform, setProperty, he, withProperty, hvalue, hnumber]
    · rw [haim]
      simp only [target?, Entities.get?_replace, if_true, he, Option.map_some, Option.bind_some,
        hname, Entity.slot?_of_setSlot hset]

end Scene

namespace Stage

/-- Such an assignment is carried out, and writes the one diagnostic. -/
theorem exists_run_of_malformed {head : List Kind} {assign : ExprSource → Action}
    {source : ExprSource} {fault : SyntaxError} {s : Stage} (h : Command.Assigns head assign)
    (hfault : source.parsed = .error fault)
    (htarget : (s.scene.target? (assign source)).isSome = true) (line : Nat) :
    ∃ s' d, s.run ⟨line, .act (assign source)⟩ = .ok s'
      ∧ s'.scene = s.scene.aim 0 (assign source)
      ∧ s'.scene.target? (assign source) = some 0
      ∧ s'.journal.diagnostics.toList = s.journal.diagnostics.toList ++ [d]
      ∧ d.code.map ErrorCode.text = some "E001" ∧ d.line = some line := by
  obtain ⟨hperform, hzero⟩ := Scene.perform_of_malformed h hfault htarget line
  let d : Diagnostic := .ofError ⟨.malformed source.text fault.cause, line⟩
  let logged := s.log (.command line (Command.act (assign source)).tag)
  refine ⟨⟨s.scene.aim 0 (assign source), logged.journal.recordAll [.reported d]⟩, d, ?_, rfl,
    hzero, ?_, rfl, rfl⟩
  · have hexec : exec line (.act (assign source)) s
        = .ok (⟨(s.scene.perform line (assign source)).scene,
            logged.journal.recordAll (s.scene.perform line (assign source)).notes⟩,
          (s.scene.perform line (assign source)).result.mapError fun c => ⟨c, line⟩) := rfl
    rw [run_eq]
    dsimp only
    rw [hexec, hperform]
    rfl
  · have hlogged : logged.journal.diagnostics.toList = s.journal.diagnostics.toList ++ [] :=
      Journal.record_diagnostics _ _
    rw [Journal.recordAll_diagnostics, hlogged, List.append_nil]
    rfl

end Stage

/-! ## 4. Assignments -/

namespace Command

variable {text : List Char} {line : Nat} {head : List Kind} {assign : ExprSource → Action}

/-- **Malformed arithmetic is kept, and becomes zero.**  Let a line be read, as it stands or
trimmed, with the first tokens of an assignment of a number.  Then it is this assignment, and its
right side is the text behind the equals sign, up to a comment and trimmed.  What the assignment
keeps of this text is the expression that the text is by itself, or a fault, which but for its
column is that of the text by itself.  Carried out with a fault where its target exists, it puts
zero there and changes nothing else, and writes one diagnostic. -/
theorem malformed_arithmetic_is_assigned (h : Assigns head assign)
    (hlex : ∃ t l more, (t = text ∨ t = Text.trim text) ∧ Token.lex line 0 t = .ok l
      ∧ kinds l.tokens = head ++ more) :
    ∃ before body comment source,
      Text.trim text = before ++ '=' :: (body ++ comment)
        ∧ (comment = [] ∨ ['/', '/'] <+: comment)
        ∧ (∃ l, Token.lex line 0 (Text.trim text) = .ok l
          ∧ l.stop = Text.byteLength (before ++ '=' :: body))
        ∧ (∃ l, Token.lex line 0 (before ++ ['=']) = .ok l ∧ kinds l.tokens = head)
        ∧ ofLine? line text = some (.ok (.act (assign source)))
        ∧ source.text = String.ofList (Text.trim body)
        ∧ (∀ e, source.parsed = .ok e ↔ Expr.ofText line 0 (Text.trim body) = .ok e)
        ∧ (Text.trim body ≠ [] → ∃ d,
            source.parsed = (Expr.ofText line 0 (Text.trim body)).mapError (.indent d))
        ∧ ∀ fault, Expr.ofText line 0 (Text.trim body) = .error fault →
          ∀ (s : Stage) (n : Nat), (s.scene.target? (assign source)).isSome = true →
          ∃ s' d, s.run ⟨n, .act (assign source)⟩ = .ok s'
            ∧ s'.scene = s.scene.aim 0 (assign source)
            ∧ s'.scene.target? (assign source) = some 0
            ∧ s'.journal.diagnostics.toList = s.journal.diagnostics.toList ++ [d]
            ∧ d.code.map ErrorCode.text = some "E001" ∧ d.line = some n := by
  obtain ⟨l, more, hread, hkinds⟩ : ∃ l more, lexFrom 0 (Text.trim text) = .ok l
      ∧ kinds l.tokens = head ++ more := by
    obtain ⟨t, l, more, rfl | rfl, hlex, hkinds⟩ := hlex
    · exact Token.exists_lexFrom_trim (Token.lex_eq_ok_iff.mp hlex) hkinds h.ne_nil h.ne_stray
    · exact ⟨l, more, Token.lex_eq_ok_iff.mp hlex, hkinds⟩
  obtain ⟨ts, us, htokens, hts, -⟩ := List.map_eq_append_iff.mp hkinds
  obtain ⟨before, body, comment, hcut⟩ := exists_cut_of_tokens hread htokens
  obtain ⟨before, rfl⟩ := h.exists_equals hts hcut
  have htext : Text.trim text = before ++ '=' :: (body ++ comment) := by
    rw [hcut.text, List.append_assoc, List.singleton_append]
  have hstop : l.stop = Text.byteLength (before ++ '=' :: body) := by
    rw [hcut.stop, List.append_assoc, List.singleton_append]
  have hfront : Token.lex line 0 (before ++ ['=']) = .ok ⟨ts, _⟩ :=
    Token.lex_eq_ok_iff.mpr hcut.read
  have hlex : Token.lex line 0 (Text.trim text) = .ok l := Token.lex_eq_ok_iff.mpr hread
  obtain ⟨hsource, hparsed, hfault⟩ := sourceOf_parsed (Text.trim text) line l.stop us
  rw [hcut.remainder_eq rfl] at hsource hparsed hfault
  generalize hright : Abreast.sourceOf (Text.trim text) ⟨line, 0, l.stop⟩ us = source
    at hsource hparsed hfault
  have hline : ofLine? line text = some (.ok (.act (assign source))) := by
    have hform := h.form_eq (Text.trim text) ⟨line, 0, l.stop⟩ hts us
    rw [← htokens, hright] at hform
    have hne : l.tokens ≠ [] := by
      rintro hnil
      rw [hnil] at hkinds
      exact h.ne_nil (List.append_eq_nil_iff.mp hkinds.symm).1
    rw [ofLine?_of_trim rfl (by rw [htext]; simp) (Token.startsComment_of_lexFrom hread hne)]
    exact congrArg some (ofText_eq_act_iff.mpr ⟨l, hlex, hform⟩)
  refine ⟨before, body, comment, source, htext, hcut.ending, ⟨l, hlex, hstop⟩, ⟨_, hfront, hts⟩,
    hline, hsource, hparsed, hfault, ?_⟩
  intro fault hmalformed s n htarget
  obtain ⟨kept, hkept⟩ : ∃ kept, source.parsed = .error kept := by
    cases hread : source.parsed with
    | error kept => exact ⟨kept, rfl⟩
    | ok e =>
      rw [hparsed e |>.mp hread] at hmalformed
      simp at hmalformed
  exact Stage.exists_run_of_malformed h hkept htarget n

/-- The line begins with an assignment to the width of `e`. -/
def isWidthLine (text : List Char) : Bool :=
  (lexFrom 0 text).toOption.any fun l =>
    match kinds l.tokens with
    | .word "e" :: .mark .dot :: .word "w" :: .mark .equals :: _ => true
    | _ => false

/-- A stage with a box named `e`. -/
def oneBox : Stage :=
  ⟨{ Scene.initial (.seeded 0) (.ofSeed 0) with
      entities := ⟨[("e", .box 1 2 3 4 (.resolve "red") 0)]⟩ }, .empty⟩

/-- A character outside the language, a second equals sign, slashes in a literal, and a comment. -/
theorem malformed_arithmetic_is_assigned_width :
    let text := " e.w = é = \"1//2\" // m".toList
    ∃ source s', ofLine? 1 text = some (.ok (.act (.setProperty "e" "w" (.number source))))
      ∧ oneBox.run ⟨1, .act (.setProperty "e" "w" (.number source))⟩ = .ok s'
      ∧ s'.scene.target? (.setProperty "e" "w" (.number source)) = some 0 := by
  intro text
  obtain ⟨l, hl, htest⟩ := (Option.any_eq_true _ _).mp
    (by decide +kernel : isWidthLine text = true)
  have hlex : Token.lex 1 0 text = .ok l := by
    rw [Token.lex_eq_ok_iff]
    cases hread : lexFrom 0 text with
    | error f => simp [hread, Except.toOption] at hl
    | ok l' => simpa [hread, Except.toOption] using hl
  obtain ⟨more, hkinds⟩ : ∃ more, kinds l.tokens
      = [.word "e", .mark .dot, .word "w", .mark .equals] ++ more := by
    split at htest
    · rename_i more heq
      exact ⟨more, heq⟩
    · exact absurd htest Bool.false_ne_true
  have hslot : (Entity.Slot.ofName? "w").isSome = true := rfl
  obtain ⟨before, body, comment, source, -, -, -, -, hline, -, hparsed, -, hrun⟩ :=
    malformed_arithmetic_is_assigned (.property "e" hslot)
      ⟨text, l, more, .inl rfl, hlex, hkinds⟩
  have hkept : (command? 1 text).any (·.keptFault?.isSome) = true := by decide +kernel
  rw [command?_eq_some_iff.mpr hline] at hkept
  cases hread : Expr.ofText 1 0 (Text.trim body) with
  | ok e =>
    have hok := (hparsed e).mpr hread
    simp [keptFault?, Action.keptFault?, ExprSource.keptFault?, hok] at hkept
  | error fault =>
    obtain ⟨s', -, hs', -, hzero, -⟩ := hrun fault hread oneBox 1 rfl
    exact ⟨source, s', hline, hs', hzero⟩

end Command
end StageScript

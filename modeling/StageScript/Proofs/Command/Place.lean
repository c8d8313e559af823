/-
# The place of a text is only a tag

A line is read at a place: it has a number, and some bytes of it stand before the text.  Nothing
that is read depends on either: they go into the faults and nowhere else.  So the same text
elsewhere is the same command there, and is refused for the same reason, as many lines further down
and as many columns further right as its place is (`Command.ofText_move`).

Faults do not only come out of a line that is refused.  An assignment keeps the fault of a right
side that is no expression, and it may stand behind any number of triggers; `Command.mapFault`
reaches all of them.

The readings at the two places run abreast (`Abreast.moved`), so nothing has to be said here about
the single forms.
-/
import StageScript.Proofs.Command.Abreast

namespace StageScript

/-! ## 1. Further down -/

/-- The fault, `n` lines further down. -/
def SyntaxError.shift (n : Nat) (e : SyntaxError) : SyntaxError := { e with line := e.line + n }

/-- The right side of an assignment, `n` lines further down. -/
def ExprSource.shift (n : Nat) (s : ExprSource) : ExprSource :=
  { s with parsed := s.parsed.mapError (.shift n) }

/-- The value of a property, `n` lines further down. -/
def PropertyValue.shift (n : Nat) : PropertyValue → PropertyValue
  | .number source => .number (source.shift n)
  | v => v

/-- The action, `n` lines further down. -/
def Action.shift (n : Nat) : Action → Action
  | .assign name source => .assign name (source.shift n)
  | .setProperty entity property v => .setProperty entity property (v.shift n)
  | a => a

/-- The command, `n` lines further down. -/
def Command.shift (n : Nat) : Command → Command
  | .act a => .act (a.shift n)
  | .on t c => .on t (c.shift n)

/-- The result of reading a line, `n` lines further down: what was read or the fault. -/
def shiftResult {α : Type} (n : Nat) (f : α → α) (r : Except SyntaxError α) :
    Except SyntaxError α :=
  (r.mapError (.shift n)).map f

/-! ## 2. Kept faults -/

section MapFault

variable (f : SyntaxError → SyntaxError)

/-- The right side of an assignment with `f` of the fault that it keeps. -/
def ExprSource.mapFault (s : ExprSource) : ExprSource := { s with parsed := s.parsed.mapError f }

/-- The value of a property with `f` of the fault that it keeps. -/
def PropertyValue.mapFault : PropertyValue → PropertyValue
  | .number source => .number (source.mapFault f)
  | v => v

/-- The action with `f` of the fault that it keeps. -/
def Action.mapFault : Action → Action
  | .assign name source => .assign name (source.mapFault f)
  | .setProperty entity property v => .setProperty entity property (v.mapFault f)
  | a => a

/-- The command with `f` of the fault that it keeps. -/
def Command.mapFault : Command → Command
  | .act a => .act (a.mapFault f)
  | .on t c => .on t c.mapFault

/-- The form with `f` of the fault that it keeps. -/
def Command.Form.mapFault : Form → Form
  | .action a => .action (a.mapFault f)
  | .trigger t => .trigger t

end MapFault

/-- The fault that a right side keeps. -/
def ExprSource.keptFault? (s : ExprSource) : Option SyntaxError :=
  match s.parsed with
  | .ok _ => none
  | .error e => some e

/-- The fault that an action keeps. -/
def Action.keptFault? : Action → Option SyntaxError
  | .assign _ source | .setProperty _ _ (.number source) => source.keptFault?
  | _ => none

/-- The fault that a command keeps. -/
def Command.keptFault? : Command → Option SyntaxError
  | .act a => a.keptFault?
  | .on _ c => c.keptFault?

theorem ExprSource.keptFault?_mapFault (f : SyntaxError → SyntaxError) (s : ExprSource) :
    (s.mapFault f).keptFault? = s.keptFault?.map f := by
  obtain ⟨text, parsed⟩ := s
  cases parsed <;> rfl

/-- What is made of the fault that a command keeps is the fault that is kept then. -/
theorem Command.keptFault?_mapFault (f : SyntaxError → SyntaxError) (c : Command) :
    (c.mapFault f).keptFault? = c.keptFault?.map f := by
  induction c with
  | act a =>
    cases a with
    | assign name s => exact s.keptFault?_mapFault f
    | setProperty entity property v =>
      cases v with
      | number s => exact s.keptFault?_mapFault f
      | _ => rfl
    | _ => rfl
  | on t c ih => exact ih

theorem Command.mapFault_shift (n : Nat) (c : Command) : c.mapFault (.shift n) = c.shift n := by
  induction c with
  | act a =>
    refine congrArg Command.act ?_
    cases a with
    | setProperty entity property v => cases v <;> rfl
    | _ => rfl
  | on t c ih => exact congrArg (Command.on t) ih

section

variable {f : SyntaxError → SyntaxError}

theorem ExprSource.Like.eq_mapFault {s t : ExprSource} (h : s.Like (fun d e => e = f d) t) :
    t = s.mapFault f := by
  cases h with
  | expr text e => rfl
  | fault text h => rw [h]; rfl

theorem ExprSource.like_mapFault (s : ExprSource) : s.Like (fun d e => e = f d) (s.mapFault f) := by
  obtain ⟨text, parsed⟩ := s
  cases parsed with
  | ok e => exact .expr text e
  | error e => exact .fault text rfl

theorem PropertyValue.Like.eq_mapFault {u v : PropertyValue} (h : u.Like (fun d e => e = f d) v) :
    v = u.mapFault f := by
  cases h with
  | number h => exact congrArg PropertyValue.number h.eq_mapFault
  | refl hu =>
    cases u with
    | number s => exact absurd rfl (hu s)
    | _ => rfl

theorem Action.Like.eq_mapFault {a b : Action} (h : a.Like (fun d e => e = f d) b) :
    b = a.mapFault f := by
  cases h with
  | assign name h => exact congrArg (Action.assign name) h.eq_mapFault
  | setProperty entity property h =>
    exact congrArg (Action.setProperty entity property) h.eq_mapFault
  | refl hassign hset =>
    cases a with
    | assign name s => exact absurd rfl (hassign name s)
    | setProperty entity property v => exact absurd rfl (hset entity property v)
    | _ => rfl

theorem Command.Form.Like.eq_mapFault {x y : Form} (h : x.Like (fun d e => e = f d) y) :
    y = x.mapFault f := by
  cases h with
  | action h => exact congrArg Form.action h.eq_mapFault
  | trigger t => rfl

/-- What does not take the rest of its line keeps no fault. -/
theorem Command.Form.mapFault_of_leaves {x : Form} (h : x.takesRest = false) :
    x.mapFault f = x := by
  cases x with
  | trigger t => rfl
  | action a =>
    refine congrArg Form.action ?_
    cases a with
    | assign | setProperty => simp [takesRest, Action.takesRest] at h
    | _ => rfl

end

/-! ## 3. The same tokens elsewhere -/

/-- The fault, `n` lines further down and `d` columns further right. -/
def SyntaxError.move (n d : Nat) (e : SyntaxError) : SyntaxError :=
  { e with line := e.line + n, column := e.column + d }

/-- The fault, `d` columns further right. -/
def SyntaxError.indent (d : Nat) (e : SyntaxError) : SyntaxError :=
  { e with column := e.column + d }

theorem Token.lex_move (n d line base : Nat) (cs : List Char) :
    lex (line + n) (base + d) cs = (lex line base cs).mapError (.move n d) := by
  unfold lex
  cases lexFrom 0 cs with
  | ok l => rfl
  | error f =>
    refine congrArg Except.error (SyntaxError.mk.injEq .. |>.mpr ⟨rfl, rfl, ?_⟩)
    dsimp only
    omega

namespace Abreast

variable {n d : Nat} {p : Place}

theorem fault_move (n d : Nat) (p : Place) (ts : List Token) (cause : SyntaxError.Cause) :
    Place.fault ⟨p.line + n, p.base + d, p.stop⟩ ts cause = (p.fault ts cause).move n d := by
  have hcolumn : p.base + d + p.offset ts + 1 = p.base + p.offset ts + 1 + d := by omega
  exact congrArg (SyntaxError.mk cause (p.line + n)) hcolumn

/-- A reading and the one of the same tokens `n` lines further down and `d` columns further
right. -/
def moved (n d : Nat) (p : Place) : Abreast where
  here := p
  there := ⟨p.line + n, p.base + d, p.stop⟩
  extra := []
  faults := fun e f => f = e.move n d
  stray := List.forall_mem_nil _
  unexpected := fun ts e => by rw [List.append_nil]; exact fault_move n d p ts _
  missing := fun ts e => by rw [List.append_nil]; exact fault_move n d p ts _
  notWhole := fun ts x => by rw [List.append_nil]; exact fault_move n d p ts _

/-- Readings that run abreast here and there, as an equation. -/
theorem Matches.eq_move {α : Type} {f : α → α} {x y : Except SyntaxError α}
    (h : (moved n d p).Matches (fun a b => b = f a) x y) :
    y = (x.mapError (.move n d)).map f := by
  cases h with
  | ok h => exact congrArg Except.ok h
  | error h => exact congrArg Except.error h

/-- A steady reader reads elsewhere what it reads here. -/
theorem Steady.move {α : Type} {r : Reader α} (h : (moved n d p).Steady r) (ts : List Token) :
    r ⟨p.line + n, p.base + d, p.stop⟩ ts = (r p ts).mapError (.move n d) := by
  have hmatches := h ts
  have heq : (moved n d p).Matches (fun a b => b = id a) (r p ts)
      (r ⟨p.line + n, p.base + d, p.stop⟩ (ts ++ [])) := by
    refine hmatches.mono ?_
    rintro ⟨x, us⟩ ⟨y, vs⟩ ⟨hxy, hvs⟩
    obtain rfl : x = y := hxy
    exact congrArg (Prod.mk x) (hvs.trans (List.append_nil us))
  rw [List.append_nil] at heq
  rw [heq.eq_move]
  cases r p ts <;> rfl

end Abreast

theorem Expr.ofText_move (n d line base : Nat) (cs : List Char) :
    Expr.ofText (line + n) (base + d) cs = (Expr.ofText line base cs).mapError (.move n d) := by
  rw [ofText_eq_whole, ofText_eq_whole, Token.lex_move]
  cases Token.lex line base cs with
  | error e => rfl
  | ok lexed =>
    have hwhole := (Abreast.steady_whole (A := .moved n d ⟨line, base, lexed.stop⟩) rfl).move
      lexed.tokens
    simp only [Except.mapError, Except.bind]
    rw [hwhole]
    cases whole ⟨line, base, lexed.stop⟩ lexed.tokens <;> rfl

/-! ## 4. Lines -/

namespace Command

open Abreast

variable {n d : Nat} {p : Place}

theorem sourceOf_move (n d : Nat) (p : Place) (src : List Char) (ts : List Token) :
    sourceOf src ⟨p.line + n, p.base + d, p.stop⟩ ts
      = (sourceOf src p ts).mapFault (.move n d) := by
  have hcut : remainder src ⟨p.line + n, p.base + d, p.stop⟩ ts = remainder src p ts := rfl
  have hoffset : p.base + d + Place.offset ⟨p.line + n, p.base + d, p.stop⟩ ts
      = p.base + p.offset ts + d := Nat.add_right_comm _ _ _
  simp only [sourceOf, hcut, hoffset, fault_move, Expr.ofText_move, ExprSource.mapFault]
  split <;> rfl

theorem sameRest_moved (n d : Nat) (p : Place) (src : List Char) :
    (moved n d p).SameRest (fun e f => f = e.move n d) src src where
  remainder ts := congrArg (remainder src p) (List.append_nil ts)
  source ts := by
    rw [moved, List.append_nil, sourceOf_move]
    exact ExprSource.like_mapFault _

/-- The forms are read elsewhere as they are read here. -/
theorem form_move (n d : Nat) (p : Place) (src : List Char) (ts : List Token) :
    form src ⟨p.line + n, p.base + d, p.stop⟩ ts
      = ((form src p ts).mapError (.move n d)).map fun x => (x.1.mapFault (.move n d), x.2) := by
  have hspawn : (moved n d p).extra ≠ [] → ¬ DeclaresSpawn ts := fun hextra => absurd rfl hextra
  have hform := matches_form (sameRest_moved n d p src) hspawn
  have heq : (moved n d p).Matches (fun x y => y = (x.1.mapFault (.move n d), x.2))
      (form src p ts) (form src ⟨p.line + n, p.base + d, p.stop⟩ (ts ++ [])) := by
    refine hform.mono ?_
    rintro ⟨f, us⟩ ⟨g, vs⟩ (⟨⟨hlike, -⟩, hus, hvs⟩ | ⟨⟨hg, hleaves⟩, hvs⟩)
    · obtain rfl : us = [] := hus
      obtain rfl : vs = [] := hvs
      exact congrArg (·, []) hlike.eq_mapFault
    · obtain rfl : g = f := hg
      have hvs : vs = us := hvs.trans (List.append_nil us)
      rw [hvs, Form.mapFault_of_leaves hleaves]
  rw [List.append_nil] at heq
  exact heq.eq_move

/-- **A text is the same command elsewhere, or it is refused there for the same reason.**  Its
faults and the one that it keeps are as far from it there as they are here. -/
theorem ofText_move (n d line base : Nat) (src : List Char) :
    ofText (line + n) (base + d) src
      = ((ofText line base src).mapError (.move n d)).map (.mapFault (.move n d)) := by
  rw [ofText, ofText, Token.lex_move]
  cases Token.lex line base src with
  | error e => rfl
  | ok lexed =>
    simp only [Except.mapError]
    rw [form_move n d ⟨line, base, lexed.stop⟩]
    cases form src ⟨line, base, lexed.stop⟩ lexed.tokens with
    | error e => rfl
    | ok x =>
      obtain ⟨f, ts⟩ := x
      cases f with
      | action a =>
        have hend := (steady_endOfLine (A := moved n d ⟨line, base, lexed.stop⟩) rfl).move ts
        simp only [Except.mapError, Except.map, Form.mapFault]
        rw [hend]
        cases Reader.endOfLine ⟨line, base, lexed.stop⟩ ts <;> rfl
      | trigger t =>
        -- what is behind the trigger is cut out here and there alike, and is shorter
        have hcut : remainder src ⟨line + n, base + d, lexed.stop⟩ ts
            = remainder src ⟨line, base, lexed.stop⟩ ts := rfl
        have hoffset : base + d + Place.offset ⟨line + n, base + d, lexed.stop⟩ ts
            = base + Place.offset ⟨line, base, lexed.stop⟩ ts + d := Nat.add_right_comm _ _ _
        simp only [Except.mapError, Except.map, Form.mapFault, hcut, hoffset]
        split
        · rw [ofText_move n d line _ _]
          cases ofText line (base + Place.offset ⟨line, base, lexed.stop⟩ ts)
            (remainder src ⟨line, base, lexed.stop⟩ ts) <;> rfl
        · exact congrArg Except.error (fault_move n d ⟨line, base, lexed.stop⟩ ts _)
termination_by src.length
decreasing_by
  rename_i hinner
  exact hinner.2

/-- **A text is the same command on every line, or it is refused on every line for the same
reason.** -/
theorem ofText_shift (n line base : Nat) (src : List Char) :
    ofText (line + n) base src = shiftResult n (.shift n) (ofText line base src) := by
  have hmap : (Command.mapFault (.shift n)) = .shift n := funext (mapFault_shift n)
  have hmove := ofText_move n 0 line base src
  rw [shiftResult, ← hmap]
  exact hmove

/-- **A text further right is the same command, or it is refused for the same reason.** -/
theorem ofText_indent (d line base : Nat) (src : List Char) :
    ofText line (base + d) src
      = ((ofText line base src).mapError (.indent d)).map (.mapFault (.indent d)) :=
  ofText_move 0 d line base src

end Command
end StageScript

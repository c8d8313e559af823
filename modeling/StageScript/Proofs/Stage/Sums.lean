/-
# Three ways to add

A number is added to a variable by `add`, by an assignment of the sum, and by a declaration of the
sum.  The last two evaluate an expression, and the value of an expression is finite: a sum that is
not becomes zero and is reported.  `add` puts the sum in place without an evaluation.  So the three
do the same just if the sum is finite; a sum that is not stays in the variable after `add`, and
nothing is said.
-/
import StageScript.Proofs.Expr.Evaluation
import StageScript.Proofs.Stage.Results

namespace StageScript

/-! ## 1. Sums as expressions -/

namespace Expr

/-- The sum of a variable and a number. -/
def sum (name : String) (k : Float) : Expr := .binary .add (.var name) (.number k)

/-- The value of an expression whose arithmetic comes to this number. -/
def settled (z : Float) : Float := if z.isFinite = true then z else 0

/-- The reports of an expression whose arithmetic comes to this number. -/
def doubts (text : String) (z : Float) : List RunError.Cause :=
  if z.isFinite = true then [] else [.notFinite text]

variable {es : Entities} {vs : Variables} {name text : String} {x k : Float} {line : Nat}

theorem evaluateAs_sum (h : vs.get? name = some x) :
    (sum name k).evaluateAs es vs line text
      = (settled (x + k), reports line (doubts text (x + k))) := by
  have hreduce : (sum name k).reduce es vs = ([], .ok (x + k)) := by
    simp [sum, reduce, h, Operator.apply]
  rw [evaluateAs_of_ok hreduce, settled, doubts]
  split
  · rfl
  · rfl

theorem codes_doubts (line : Nat) (text : String) (z : Float) :
    (reports line (doubts text z)).map Diagnostic.code
      = if z.isFinite = true then [] else [some .notFinite] := by
  unfold doubts
  split
  · rfl
  · rfl

end Expr

/-! ## 2. The three commands -/

/-- The scene with another number under a name. -/
def Scene.withVar (s : Scene) (name : String) (x : Float) : Scene :=
  { s with vars := s.vars.set name x }

namespace Stage

open StageScript.Expr (sum settled doubts reports)

/-- The codes of the reports that were written since. -/
def codesSince (s s' : Stage) : List (Option ErrorCode) :=
  (s'.journal.diagnostics.toList.drop s.journal.diagnostics.toList.length).map Diagnostic.code

variable {s : Stage} {line : Nat} {name text : String} {x k : Float}

/-- An action that is done leaves its scene, and its notes are what was reported since. -/
theorem exists_exec_act {a : Action} {scene : Scene} {ds : List Diagnostic}
    (h : s.scene.perform line a = .done scene (ds.map .reported)) :
    ∃ s', exec line (.act a) s = .ok (s', .ok none) ∧ s'.scene = scene
      ∧ s.codesSince s' = ds.map Diagnostic.code := by
  let begun := s.log (.command line (Command.act a).tag)
  refine ⟨⟨scene, begun.journal.recordAll (ds.map .reported)⟩, ?_, rfl, ?_⟩
  · have hexec : exec line (.act a) s
        = .ok (⟨(s.scene.perform line a).scene,
            begun.journal.recordAll (s.scene.perform line a).notes⟩,
          (s.scene.perform line a).result.mapError fun c => ⟨c, line⟩) := by
      rw [exec]
      rfl
    rw [hexec, h]
    rfl
  · have hreports : (ds.map Event.reported).filterMap Event.report? = ds := by
      simp [List.filterMap_map, Function.comp_def, Event.report?]
    have hbegun : begun.journal.diagnostics = s.journal.diagnostics := rfl
    rw [codesSince, Journal.recordAll_diagnostics, hreports, hbegun, List.drop_left]

theorem exists_exec_add (h : s.scene.vars.get? name = some x) (line : Nat) (k : Float) :
    ∃ s', exec line (.act (.add name k)) s = .ok (s', .ok none)
      ∧ s'.scene = s.scene.withVar name (x + k) ∧ s.codesSince s' = [] := by
  have hperform : s.scene.perform line (.add name k)
      = .done (s.scene.withVar name (x + k)) (([] : List Diagnostic).map .reported) := by
    rw [Scene.perform, h]
    rfl
  exact exists_exec_act hperform

theorem exists_exec_assign (h : s.scene.vars.get? name = some x) (line : Nat) (text : String)
    (k : Float) :
    ∃ s', exec line (.act (.assign name ⟨text, .ok (sum name k)⟩)) s = .ok (s', .ok none)
      ∧ s'.scene = s.scene.withVar name (settled (x + k))
      ∧ s.codesSince s' = (reports line (doubts text (x + k))).map Diagnostic.code := by
  have hcontains : s.scene.vars.contains name = true := by
    rw [Variables.contains_eq_isSome, h, Option.isSome_some]
  have hvalue : ExprSource.evaluate s.scene.entities s.scene.vars line ⟨text, .ok (sum name k)⟩
      = (settled (x + k), reports line (doubts text (x + k))) := Expr.evaluateAs_sum h
  refine exists_exec_act ?_
  rw [Scene.perform, if_pos hcontains, Scene.sourceValue, hvalue]
  rfl

theorem exists_exec_declare (h : s.scene.vars.get? name = some x) (line : Nat) (k : Float) :
    ∃ s', exec line (.act (.declare name (.number (sum name k)))) s = .ok (s', .ok none)
      ∧ s'.scene = s.scene.withVar name (settled (x + k))
      ∧ s.codesSince s'
        = (reports line (doubts (sum name k).text (x + k))).map Diagnostic.code := by
  have hvalue : (sum name k).evaluate s.scene.entities s.scene.vars line
      = (settled (x + k), reports line (doubts (sum name k).text (x + k))) :=
    Expr.evaluateAs_sum h
  refine exists_exec_act ?_
  rw [Scene.perform, Scene.declare, Scene.value, hvalue]
  rfl

/-! ## 3. When they agree -/

theorem get?_withVar (s : Scene) (name : String) (x : Float) :
    (s.withVar name x).vars.get? name = some x := by
  rw [Scene.withVar, Variables.get?_set, if_pos rfl]

theorem settled_eq_iff {z : Float} : settled z = z ↔ z.isFinite = true := by
  have hzero : (0 : Float).isFinite = true := by decide
  by_cases hz : z.isFinite = true
  · simp [settled, hz]
  · rw [settled, if_neg hz]
    constructor
    · intro h
      exact h ▸ hzero
    · intro h
      exact absurd h hz

/-- **Three ways to add agree on finite sums, and on no others.**  For a declared variable, all
three commands come out well, change nothing but the variable, and fail in nothing.  The assignment
and the declaration of the sum always agree: they leave the sum and report nothing if it is finite,
and leave zero and report once if it is not.  `add` leaves the sum and reports nothing, whatever
the sum is. -/
theorem three_ways_to_add (h : s.scene.vars.get? name = some x) (line : Nat) (text : String)
    (k : Float) :
    ∃ added assigned declared,
      exec line (.act (.add name k)) s = .ok (added, .ok none)
        ∧ exec line (.act (.assign name ⟨text, .ok (sum name k)⟩)) s = .ok (assigned, .ok none)
        ∧ exec line (.act (.declare name (.number (sum name k)))) s = .ok (declared, .ok none)
        ∧ added.scene = s.scene.withVar name (x + k)
        ∧ s.codesSince added = []
        ∧ assigned.scene = s.scene.withVar name (settled (x + k))
        ∧ s.codesSince assigned = (if (x + k).isFinite = true then [] else [some .notFinite])
        ∧ declared.scene = assigned.scene
        ∧ s.codesSince declared = s.codesSince assigned
        ∧ (added.scene = assigned.scene ↔ (x + k).isFinite = true)
        ∧ (s.codesSince added = s.codesSince assigned ↔ (x + k).isFinite = true) := by
  obtain ⟨added, hadd, haddScene, haddCodes⟩ := exists_exec_add h line k
  obtain ⟨assigned, hassign, hassignScene, hassignCodes⟩ := exists_exec_assign h line text k
  obtain ⟨declared, hdeclare, hdeclareScene, hdeclareCodes⟩ := exists_exec_declare h line k
  rw [Expr.codes_doubts] at hassignCodes hdeclareCodes
  refine ⟨added, assigned, declared, hadd, hassign, hdeclare, haddScene, haddCodes, hassignScene,
    hassignCodes, hdeclareScene.trans hassignScene.symm, hdeclareCodes.trans hassignCodes.symm,
    ?_, ?_⟩
  · rw [haddScene, hassignScene, ← settled_eq_iff]
    constructor
    · intro hsame
      have hvalue := congrArg (fun scene => scene.vars.get? name) hsame
      simp only [get?_withVar, Option.some.injEq] at hvalue
      exact hvalue.symm
    · intro hsettled
      rw [hsettled]
  · rw [haddCodes, hassignCodes]
    split
    · simp_all
    · simp_all

/-- A stage with a variable whose double is beyond the doubles. -/
def wideStage : Stage :=
  ⟨{ Scene.initial (.seeded 0) (.ofSeed 0) with vars := ⟨[("a", 1e308)]⟩ }, .empty⟩

theorem three_ways_to_add_wideStage :
    wideStage.scene.vars.get? "a" = some 1e308
      ∧ ∃ added assigned declared,
          exec 2 (.act (.add "a" (-1e307))) wideStage = .ok (added, .ok none)
            ∧ exec 2 (.act (.assign "a" ⟨"a - 1e307", .ok (sum "a" (-1e307))⟩)) wideStage
              = .ok (assigned, .ok none)
            ∧ exec 2 (.act (.declare "a" (.number (sum "a" (-1e307))))) wideStage
              = .ok (declared, .ok none)
            ∧ added.scene = assigned.scene ∧ declared.scene = assigned.scene := by
  have ha : wideStage.scene.vars.get? "a" = some 1e308 := rfl
  have hfinite : ((1e308 : Float) + -1e307).isFinite = true := by decide +kernel
  obtain ⟨added, assigned, declared, hadd, hassign, hdeclare, -, -, -, -, hsame, -, hagree, -⟩ :=
    three_ways_to_add ha 2 "a - 1e307" (-1e307)
  exact ⟨ha, added, assigned, declared, hadd, hassign, hdeclare, hagree.mpr hfinite, hsame⟩

/-- Twice the number is infinite.  It stays in the variable after `add`; after the assignment of
the same sum the variable is zero. -/
theorem add_keeps_an_infinite_sum :
    ∃ added assigned,
      exec 2 (.act (.add "a" 1e308)) wideStage = .ok (added, .ok none)
        ∧ exec 2 (.act (.assign "a" ⟨(sum "a" 1e308).text, .ok (sum "a" 1e308)⟩)) wideStage
          = .ok (assigned, .ok none)
        ∧ added.scene.vars.get? "a" ≠ assigned.scene.vars.get? "a"
        ∧ wideStage.codesSince added ≠ wideStage.codesSince assigned := by
  have ha : wideStage.scene.vars.get? "a" = some 1e308 := rfl
  have hinfinite : ((1e308 : Float) + 1e308).isFinite = false := by decide +kernel
  obtain ⟨added, hadd, haddScene, haddCodes⟩ := exists_exec_add ha 2 1e308
  obtain ⟨assigned, hassign, hassignScene, hassignCodes⟩ :=
    exists_exec_assign ha 2 (sum "a" 1e308).text 1e308
  refine ⟨added, assigned, hadd, hassign, ?_, ?_⟩
  · rw [haddScene, hassignScene, get?_withVar, get?_withVar]
    intro hsame
    have hfinite := settled_eq_iff.mp (Option.some.inj hsame).symm
    rw [hinfinite] at hfinite
    exact absurd hfinite (by decide)
  · rw [haddCodes, hassignCodes, Expr.codes_doubts, hinfinite]
    simp

end Stage
end StageScript

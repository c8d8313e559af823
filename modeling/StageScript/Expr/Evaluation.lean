/-
# Evaluating an expression

The value of an expression is always a finite number.  A property that its entity does not
carry is reported and read as zero, and the rest is evaluated; the first unknown name ends the
evaluation with zero.  A value that is not finite is reported and replaced by zero.

`reduce` computes the value and lists what was reported on the way.  `evaluate` adds the last
report, and `ExprSource.evaluate` does the same for the source of an assignment, whose text may
be no expression at all.
-/
import StageScript.Diagnostic
import StageScript.Command
import StageScript.Entities
import StageScript.Variables

namespace StageScript
namespace Expr

/-! ## 1. Terms -/

/-- The value of a property, with a zero and a report for one that the entity lacks. -/
def reduceProperty (es : Entities) (entity prop : String) :
    List RunError.Cause × Except RunError.Cause Float :=
  match es.get? entity with
  | none => ([], .error (.unknownEntity entity))
  | some e =>
    match e.number prop with
    | .ok x => ([], .ok x)
    | .error .unsupported => ([.noNumber entity prop], .ok 0)
    | .error .unknown => ([], .error (.unknownProperty prop entity))

/-- The reports of an evaluation, left to right, and its value or the term that ended it. -/
def reduce (es : Entities) (vs : Variables) :
    Expr → List RunError.Cause × Except RunError.Cause Float
  | number x => ([], .ok x)
  | var name =>
    match vs.get? name with
    | some x => ([], .ok x)
    | none => ([], .error (.unknownVariable name))
  | property entity prop => reduceProperty es entity prop
  | neg e =>
    match reduce es vs e with
    | (soft, .error c) => (soft, .error c)
    | (soft, .ok x) => (soft, .ok (-x))
  | binary op left right =>
    match reduce es vs left with
    | (soft, .error c) => (soft, .error c)
    | (soft, .ok x) =>
      match reduce es vs right with
      | (soft', .error c) => (soft ++ soft', .error c)
      | (soft', .ok y) => (soft ++ soft', .ok (op.apply x y))

/-! ## 2. Whole expressions -/

/-- The value, and the reports of the evaluation.  `text` is the expression as the messages
show it. -/
def evaluateAs (es : Entities) (vs : Variables) (line : Nat) (text : String) (e : Expr) :
    Float × List Diagnostic :=
  let (soft, result) := e.reduce es vs
  let (value, last) : Float × List RunError.Cause :=
    match result with
    | .ok x => if x.isFinite then (x, []) else (0, [.notFinite text])
    | .error c => (0, [.inExpression text c])
  (value, (soft ++ last).map fun c => .ofError ⟨c, line⟩)

/-- The value, and the reports of the evaluation. -/
def evaluate (es : Entities) (vs : Variables) (line : Nat) (e : Expr) :
    Float × List Diagnostic :=
  e.evaluateAs es vs line e.text

end Expr

/-- The value of the right side of an assignment, and the reports of its evaluation.  What is
no expression counts as zero and is reported as such. -/
def ExprSource.evaluate (es : Entities) (vs : Variables) (line : Nat) (s : ExprSource) :
    Float × List Diagnostic :=
  match s.parsed with
  | .ok e => e.evaluateAs es vs line s.text
  | .error fault => (0, [.ofError ⟨.malformed s.text fault.cause, line⟩])

end StageScript

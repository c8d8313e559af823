/-
# An expression is evaluated leaf by leaf

The leaves of an expression, from left to right, decide what its evaluation reports; the operators
have no part in it.  A leaf whose name is not known ends the evaluation (`Leaf.unknown?`): its
report is the last one, and the value is zero.  A property that its entity lacks is reported and
read as zero (`Leaf.lack?`).  With all names known, the value is the arithmetic of the tree over
the numbers of the leaves (`arithmetic`).

The reduction stops inside the tree, between two operands.  The leaves in front of the stop are
then those of the left operand with some of the right one, so a stop in the right operand comes
behind all leaves of the left one, and both cases of an operator are lists put side by side.
-/
import StageScript.Expr.Evaluation
import StageScript.Proofs.Stage.Entities
import StageScript.Proofs.Stage.Variables

namespace StageScript

/-! ## 1. Leaves -/

/-- The properties that a script may read as numbers are those that some entity has. -/
theorem Entity.isNumericProperty_iff {prop : String} :
    Entity.isNumericProperty prop = true ↔ ∃ (e : Entity) (x : Float), e.number prop = .ok x := by
  constructor
  · intro hprop
    obtain ⟨slot, hslot⟩ := Option.isSome_iff_exists.mp hprop
    -- a box has all slots
    refine ⟨.box 0 0 0 0 Color.black 0, 0, ?_⟩
    cases slot <;> simp [number, hslot, slot?]
  · rintro ⟨e, x, hx⟩
    rw [isNumericProperty, Option.isSome_iff_ne_none]
    intro hnone
    simp [number, hnone] at hx

namespace Expr

/-- A term without terms of its own. -/
inductive Leaf where
  | number (value : Float)
  | var (name : String)
  | property (entity prop : String)

/-- The leaves, from left to right. -/
def leaves : Expr → List Leaf
  | number x => [.number x]
  | var name => [.var name]
  | property entity prop => [.property entity prop]
  | neg e => e.leaves
  | binary _ left right => left.leaves ++ right.leaves

/-- The value of the tree over numbers for its leaves. -/
def arithmetic (read : Leaf → Float) : Expr → Float
  | number x => read (.number x)
  | var name => read (.var name)
  | property entity prop => read (.property entity prop)
  | neg e => -e.arithmetic read
  | binary op left right => op.apply (left.arithmetic read) (right.arithmetic read)

namespace Leaf

variable (es : Entities) (vs : Variables)

/-- Why the leaf ends an evaluation: a variable or an entity that is not declared, or a property
of no entity. -/
def unknown? : Leaf → Option RunError.Cause
  | number _ => none
  | var name => if vs.contains name then none else some (.unknownVariable name)
  | property entity prop =>
    if es.contains entity then
      if Entity.isNumericProperty prop then none else some (.unknownProperty prop entity)
    else some (.unknownEntity entity)

/-- The number that the leaf stands for. -/
def number? : Leaf → Option Float
  | number x => some x
  | var name => vs.get? name
  | property entity prop => do (← es.get? entity).slot? (← Entity.Slot.ofName? prop)

/-- The number of the leaf; a leaf without one counts as zero. -/
def value (leaf : Leaf) : Float := (leaf.number? es vs).getD 0

/-- The report about a property that its entity lacks. -/
def lack? (leaf : Leaf) : Option RunError.Cause :=
  match leaf, leaf.number? es vs with
  | property entity prop, none => some (.noNumber entity prop)
  | _, _ => none

/-- The leaf as an expression. -/
def expr : Leaf → Expr
  | number x => .number x
  | var name => .var name
  | property entity prop => .property entity prop

variable {es vs} {leaf : Leaf} {c : RunError.Cause}

/-- A leaf with a known name has a number, or is a property that its entity lacks. -/
theorem reduce_of_known (h : leaf.unknown? es vs = none) :
    leaf.expr.reduce es vs = ((leaf.lack? es vs).toList, .ok (leaf.value es vs)) := by
  cases leaf with
  | number x => rfl
  | var name =>
    cases hget : vs.get? name with
    | none => simp [unknown?, Variables.contains_eq_isSome, hget] at h
    | some x => simp [expr, reduce, hget, lack?, value, number?]
  | property entity prop =>
    cases hget : es.get? entity with
    | none => simp [unknown?, Entities.contains_eq_isSome, hget] at h
    | some e =>
      cases hname : Entity.Slot.ofName? prop with
      | none =>
        simp [unknown?, Entities.contains_eq_isSome, hget, Entity.isNumericProperty, hname] at h
      | some slot =>
        cases hslot : e.slot? slot with
        | none | some _ =>
          simp [expr, reduce, reduceProperty, hget, Entity.number, hname, hslot, lack?, value,
            number?]

theorem reduce_of_unknown (h : leaf.unknown? es vs = some c) :
    leaf.expr.reduce es vs = ([], .error c) := by
  cases leaf with
  | number x => simp [unknown?] at h
  | var name =>
    cases hget : vs.get? name with
    | none => simpa [unknown?, Variables.contains_eq_isSome, hget, expr, reduce] using h
    | some x => simp [unknown?, Variables.contains_eq_isSome, hget] at h
  | property entity prop =>
    cases hget : es.get? entity with
    | none =>
      simpa [unknown?, Entities.contains_eq_isSome, hget, expr, reduce, reduceProperty] using h
    | some e =>
      cases hname : Entity.Slot.ofName? prop with
      | none =>
        simpa [unknown?, Entities.contains_eq_isSome, hget, Entity.isNumericProperty, hname, expr,
          reduce, reduceProperty, Entity.number] using h
      | some slot =>
        simp [unknown?, Entities.contains_eq_isSome, hget, Entity.isNumericProperty, hname] at h

end Leaf

/-! ## 2. Reduction -/

/-- The names in these leaves are known. -/
def Known (es : Entities) (vs : Variables) (ls : List Leaf) : Prop :=
  ∀ leaf ∈ ls, leaf.unknown? es vs = none

/-- The reports about these leaves. -/
def lacks (es : Entities) (vs : Variables) (ls : List Leaf) : List RunError.Cause :=
  ls.filterMap (Leaf.lack? es vs)

variable {es : Entities} {vs : Variables} {e : Expr} {leaf leaf' : Leaf}
  {before behind : List Leaf} {c : RunError.Cause}

theorem lacks_singleton (es : Entities) (vs : Variables) (leaf : Leaf) :
    lacks es vs [leaf] = (leaf.lack? es vs).toList := by
  rw [lacks, List.filterMap_cons, List.filterMap_nil]
  cases leaf.lack? es vs <;> rfl

theorem lacks_append (es : Entities) (vs : Variables) (ls ls' : List Leaf) :
    lacks es vs (ls ++ ls') = lacks es vs ls ++ lacks es vs ls' :=
  List.filterMap_append

theorem reduce_leaf_of_known (leaf : Leaf) (h : Known es vs [leaf]) :
    leaf.expr.reduce es vs = (lacks es vs [leaf], .ok (leaf.value es vs)) := by
  rw [Leaf.reduce_of_known (h leaf (List.mem_singleton_self leaf)), lacks_singleton]

/-- With all names known, the value is the arithmetic of the tree. -/
theorem reduce_of_known (h : Known es vs e.leaves) :
    e.reduce es vs = (lacks es vs e.leaves, .ok (e.arithmetic (Leaf.value es vs))) := by
  induction e with
  | number x => exact reduce_leaf_of_known (.number x) h
  | var name => exact reduce_leaf_of_known (.var name) h
  | property entity prop => exact reduce_leaf_of_known (.property entity prop) h
  | neg e ih => simp only [reduce, ih h, leaves, arithmetic]
  | binary op left right ihl ihr =>
    obtain ⟨hleft, hright⟩ := List.forall_mem_append.mp h
    simp only [reduce, ihl hleft, ihr hright, leaves, lacks_append, arithmetic]

/-- A leaf between the leaves of two operands is one of the left operand, or it stands behind all
of these. -/
theorem exists_of_append_eq {left right : List Leaf}
    (h : left ++ right = before ++ leaf :: behind) :
    (∃ mid, left = before ++ leaf :: mid)
      ∨ ∃ mid, before = left ++ mid ∧ right = mid ++ leaf :: behind := by
  rcases List.append_eq_append_iff.mp h with ⟨mid, hbefore, hright⟩ | ⟨mid, hleft, hbehind⟩
  · exact .inr ⟨mid, hbefore, hright⟩
  · cases mid with
    | nil => exact .inr ⟨[], by simpa using hleft.symm, hbehind.symm⟩
    | cons leaf' mid =>
      obtain ⟨rfl, -⟩ := List.cons.inj hbehind
      exact .inl ⟨mid, hleft⟩

theorem eq_of_singleton_eq (h : [leaf'] = before ++ leaf :: behind) :
    before = [] ∧ leaf' = leaf := by
  cases before with
  | nil => exact ⟨rfl, (List.cons.inj h).1⟩
  | cons l before => simp at h

theorem reduce_leaf_of_unknown (leaf' : Leaf) (h : [leaf'] = before ++ leaf :: behind)
    (hc : leaf.unknown? es vs = some c) :
    leaf'.expr.reduce es vs = (lacks es vs before, .error c) := by
  obtain ⟨rfl, rfl⟩ := eq_of_singleton_eq h
  exact Leaf.reduce_of_unknown hc

/-- The first unknown name ends the reduction. -/
theorem reduce_of_unknown (hleaves : e.leaves = before ++ leaf :: behind)
    (hbefore : Known es vs before) (hc : leaf.unknown? es vs = some c) :
    e.reduce es vs = (lacks es vs before, .error c) := by
  induction e generalizing before behind with
  | number x => exact reduce_leaf_of_unknown (.number x) hleaves hc
  | var name => exact reduce_leaf_of_unknown (.var name) hleaves hc
  | property entity prop =>
    exact reduce_leaf_of_unknown (.property entity prop) hleaves hc
  | neg e ih => simp only [reduce, ih hleaves hbefore]
  | binary op left right ihl ihr =>
    rcases exists_of_append_eq hleaves with ⟨mid, hleft⟩ | ⟨mid, rfl, hright⟩
    · simp only [reduce, ihl hleft hbefore]
    · -- the left operand is reduced to its end
      obtain ⟨hleft, hmid⟩ := List.forall_mem_append.mp hbefore
      simp only [reduce, reduce_of_known hleft, ihr hright hmid, lacks_append]

/-- The leaves are all known, or there is a first one that is not. -/
theorem known_or_exists_unknown (es : Entities) (vs : Variables) (ls : List Leaf) :
    Known es vs ls ∨ ∃ before leaf behind c, ls = before ++ leaf :: behind
      ∧ Known es vs before ∧ leaf.unknown? es vs = some c := by
  induction ls with
  | nil => exact .inl fun _ h => absurd h List.not_mem_nil
  | cons leaf ls ih =>
    cases hleaf : leaf.unknown? es vs with
    | some c => exact .inr ⟨[], leaf, ls, c, rfl, fun _ h => absurd h List.not_mem_nil, hleaf⟩
    | none =>
      rcases ih with hknown | ⟨before, leaf', behind, c, rfl, hbefore, hc⟩
      · exact .inl (List.forall_mem_cons.mpr ⟨hleaf, hknown⟩)
      · exact .inr ⟨leaf :: before, leaf', behind, c, rfl,
          List.forall_mem_cons.mpr ⟨hleaf, hbefore⟩, hc⟩

/-! ## 3. Whole expressions -/

/-- The reports of failures on a line. -/
def reports (line : Nat) (causes : List RunError.Cause) : List Diagnostic :=
  causes.map fun c => .ofError ⟨c, line⟩

variable {line : Nat} {text : String} {soft : List RunError.Cause} {x : Float}

theorem evaluateAs_of_ok (h : e.reduce es vs = (soft, .ok x)) :
    e.evaluateAs es vs line text
      = if x.isFinite = true then (x, reports line soft)
        else (0, reports line (soft ++ [.notFinite text])) := by
  simp only [evaluateAs, h]
  by_cases hx : x.isFinite = true
  · rw [if_pos hx, if_pos hx, List.append_nil, reports]
  · rw [if_neg hx, if_neg hx, reports]

theorem evaluateAs_of_error (h : e.reduce es vs = (soft, .error c)) :
    e.evaluateAs es vs line text = (0, reports line (soft ++ [.inExpression text c])) := by
  simp only [evaluateAs, h, reports]

/-- **The value of an expression is finite**, whatever the variables hold. -/
theorem isFinite_evaluateAs (es : Entities) (vs : Variables) (line : Nat) (text : String)
    (e : Expr) : (e.evaluateAs es vs line text).1.isFinite = true := by
  have hzero : (0 : Float).isFinite = true := by decide
  rcases hreduce : e.reduce es vs with ⟨soft, c | x⟩
  · rw [evaluateAs_of_error hreduce]
    exact hzero
  · rw [evaluateAs_of_ok hreduce]
    split
    · assumption
    · exact hzero

end Expr

/-! ## 4. What evaluations report -/

/-- The reason stands for a term or a text of an expression, whose value is then taken for zero.
The other reasons are those for which a command fails. -/
def RunError.Cause.ofEvaluation : RunError.Cause → Bool
  | noNumber _ _ => true
  | malformed _ _ => true
  | notFinite _ => true
  | inExpression _ _ => true
  | _ => false

/-- The report of an evaluation on the given line. -/
def Diagnostic.OfEvaluation (line : Nat) (d : Diagnostic) : Prop :=
  ∃ c : RunError.Cause, c.ofEvaluation = true ∧ d = .ofError ⟨c, line⟩

namespace Expr

variable {es : Entities} {vs : Variables} {line : Nat}

theorem ofEvaluation_of_mem_lacks {ls : List Leaf} {c : RunError.Cause} (h : c ∈ lacks es vs ls) :
    c.ofEvaluation = true := by
  obtain ⟨leaf, -, hlack⟩ := List.mem_filterMap.mp h
  unfold Leaf.lack? at hlack
  split at hlack
  · obtain rfl := Option.some.inj hlack
    rfl
  · simp at hlack

theorem ofEvaluation_of_mem_reports {causes : List RunError.Cause}
    (h : ∀ c ∈ causes, c.ofEvaluation = true) : ∀ d ∈ reports line causes, d.OfEvaluation line := by
  intro d hd
  obtain ⟨c, hc, rfl⟩ := List.mem_map.mp hd
  exact ⟨c, h c hc, rfl⟩

theorem reduce_reports (es : Entities) (vs : Variables) (e : Expr) :
    ∀ c ∈ (e.reduce es vs).1, c.ofEvaluation = true := by
  intro c hc
  rcases known_or_exists_unknown es vs e.leaves with
    hknown | ⟨before, leaf, behind, c', hleaves, hbefore, hc'⟩
  · rw [reduce_of_known hknown] at hc
    exact ofEvaluation_of_mem_lacks hc
  · rw [reduce_of_unknown hleaves hbefore hc'] at hc
    exact ofEvaluation_of_mem_lacks hc

theorem evaluateAs_reports (es : Entities) (vs : Variables) (line : Nat) (text : String)
    (e : Expr) : ∀ d ∈ (e.evaluateAs es vs line text).2, d.OfEvaluation line := by
  have hsoft := e.reduce_reports es vs
  rcases hreduce : e.reduce es vs with ⟨soft, c | x⟩
  · rw [hreduce] at hsoft
    rw [evaluateAs_of_error hreduce]
    exact ofEvaluation_of_mem_reports
      (List.forall_mem_append.mpr ⟨hsoft, List.forall_mem_singleton.mpr rfl⟩)
  · rw [hreduce] at hsoft
    rw [evaluateAs_of_ok hreduce]
    split
    · exact ofEvaluation_of_mem_reports hsoft
    · exact ofEvaluation_of_mem_reports
        (List.forall_mem_append.mpr ⟨hsoft, List.forall_mem_singleton.mpr rfl⟩)

end Expr

theorem ExprSource.evaluate_reports (es : Entities) (vs : Variables) (line : Nat)
    (source : ExprSource) : ∀ d ∈ (source.evaluate es vs line).2, d.OfEvaluation line := by
  unfold evaluate
  split
  · exact Expr.evaluateAs_reports es vs line _ _
  · rename_i fault _
    intro d hd
    obtain rfl := List.mem_singleton.mp hd
    exact ⟨.malformed source.text fault.cause, rfl, rfl⟩

/-! ## 5. Leaf by leaf -/

namespace Expr

/-- **An expression is evaluated leaf by leaf.**  Up to the first leaf with an unknown name, each
property that its entity lacks is reported; then the unknown name is, with the code of its own
reason, and the value is zero.  With all names known the value is the arithmetic of the tree, in
which the properties that were lacking are zero; if it is not finite, this is the last report, and
the value is zero as well.  The source of an assignment and every other expression follow the one
rule.  The value is always finite, and all reports are errors on the given line. -/
theorem evaluates_leaf_by_leaf (es : Entities) (vs : Variables) (line : Nat) (text : String)
    (e : Expr) :
    (∀ before leaf behind c, e.leaves = before ++ leaf :: behind → Known es vs before →
        leaf.unknown? es vs = some c →
        ExprSource.evaluate es vs line ⟨text, .ok e⟩
          = (0, reports line (lacks es vs before ++ [.inExpression text c])))
      ∧ (Known es vs e.leaves →
          ExprSource.evaluate es vs line ⟨text, .ok e⟩
            = if (e.arithmetic (Leaf.value es vs)).isFinite = true
              then (e.arithmetic (Leaf.value es vs), reports line (lacks es vs e.leaves))
              else (0, reports line (lacks es vs e.leaves ++ [.notFinite text])))
      ∧ e.evaluate es vs line = ExprSource.evaluate es vs line ⟨e.text, .ok e⟩
      ∧ (ExprSource.evaluate es vs line ⟨text, .ok e⟩).1.isFinite = true
      ∧ ∀ d ∈ (ExprSource.evaluate es vs line ⟨text, .ok e⟩).2,
          d.level = .error ∧ d.line = some line := by
  refine ⟨?_, ?_, rfl, isFinite_evaluateAs es vs line text e, ?_⟩
  · intro before leaf behind c hleaves hbefore hc
    exact evaluateAs_of_error (reduce_of_unknown hleaves hbefore hc)
  · intro hknown
    exact evaluateAs_of_ok (reduce_of_known hknown)
  · intro d hd
    obtain ⟨c, -, rfl⟩ := evaluateAs_reports es vs line text e d hd
    exact ⟨rfl, rfl⟩

/-- A label and no variables. -/
def labelled : Entities := ⟨[("t", .label 1 2 "hi" 10 .black "Arial")]⟩

/-- The width of a label is reported before the name that nothing has; what follows is not
looked at.  A division by a height that a label lacks is not finite. -/
theorem evaluates_leaf_by_leaf_labelled :
    ((ExprSource.evaluate labelled .empty 3 ⟨"t.w + ghost * t.size",
        .ok (.binary .add (.property "t" "w")
          (.binary .mul (.var "ghost") (.property "t" "size")))⟩).2.map Diagnostic.code
        = [some .wrongValueKind, some .unknownVariable])
      ∧ (ExprSource.evaluate labelled .empty 3 ⟨"1 / t.h",
          .ok (.binary .div (.number 1) (.property "t" "h"))⟩).2.map Diagnostic.code
        = [some .wrongValueKind, some .notFinite] := by
  have hwidth : Known labelled .empty [.property "t" "w"] := List.forall_mem_singleton.mpr rfl
  have hheight : Known labelled .empty (binary .div (.number 1) (.property "t" "h")).leaves :=
    List.forall_mem_cons.mpr ⟨rfl, List.forall_mem_singleton.mpr rfl⟩
  constructor
  · rw [(evaluates_leaf_by_leaf labelled .empty 3 _ _).1 [.property "t" "w"] (.var "ghost")
      [.property "t" "size"] _ rfl hwidth rfl]
    rfl
  · rw [(evaluates_leaf_by_leaf labelled .empty 3 _ _).2.1 hheight, if_neg (by decide +kernel)]
    rfl

end Expr
end StageScript

/-
# What comes of statements

Statements have a stage as their result, or a time goes beyond the longest duration.  Proofs that
compare two lists of statements, or one list on two stages, need three things, and they stand
here: when two results match (`Matched`), what is written in a journal and waits there for the
host (`Journal.Continues`, `Event.report?`), and how commands and lists of statements are taken
apart (`exec_key`, `runAll_append`).
-/
import StageScript.Stage

namespace StageScript

/-! ## 1. Results that match -/

/-- Both have a result, and the results are related; or neither has one. -/
inductive Matched {α β : Type} (R : α → β → Prop) : Except Overflow α → Except Overflow β → Prop
  | overflow (o o' : Overflow) : Matched R (.error o) (.error o')
  | result {a : α} {b : β} : R a b → Matched R (.ok a) (.ok b)

namespace Matched

variable {α β γ δ : Type} {R : α → β → Prop} {x : Except Overflow α} {y : Except Overflow β}

theorem map {S : γ → δ → Prop} {f : α → γ} {g : β → δ} (h : Matched R x y)
    (hfg : ∀ a b, R a b → S (f a) (g b)) : Matched S (x.map f) (y.map g) := by
  cases h with
  | overflow o o' => exact .overflow o o'
  | result hab => exact .result (hfg _ _ hab)

theorem bind {S : γ → δ → Prop} {f : α → Except Overflow γ} {g : β → Except Overflow δ}
    (h : Matched R x y) (hfg : ∀ a b, R a b → Matched S (f a) (g b)) :
    Matched S (x.bind f) (y.bind g) := by
  cases h with
  | overflow o o' => exact .overflow o o'
  | result hab => exact hfg _ _ hab

theorem mono {S : α → β → Prop} (h : Matched R x y) (hRS : ∀ a b, R a b → S a b) :
    Matched S x y := by
  cases h with
  | overflow o o' => exact .overflow o o'
  | result hab => exact .result (hRS _ _ hab)

/-- What is known of the first result may be used. -/
theorem strengthen {P : α → Prop} (h : Matched R x y) (hP : ∀ a, x = .ok a → P a) :
    Matched (fun a b => P a ∧ R a b) x y := by
  cases h with
  | overflow o o' => exact .overflow o o'
  | result hab => exact .result ⟨hP _ rfl, hab⟩

theorem exists_of_ok {a : α} (h : Matched R (.ok a) y) : ∃ b, y = .ok b ∧ R a b := by
  cases h with
  | result hab => exact ⟨_, rfl, hab⟩

end Matched

/-- There is a result, and it passes the test. -/
def passes {α : Type} (x : Except Overflow α) (test : α → Bool) : Bool :=
  match x with
  | .ok a => test a
  | .error _ => false

theorem exists_of_passes {α : Type} {x : Except Overflow α} {test : α → Bool}
    (h : passes x test = true) : ∃ a, x = .ok a ∧ test a = true := by
  unfold passes at h
  split at h
  · exact ⟨_, rfl, h⟩
  · simp at h

/-! ## 2. What waits in a journal -/

/-- The diagnostic that an event reports. -/
def Event.report? : Event → Option Diagnostic
  | reported d => some d
  | _ => none

theorem Journal.record_diagnostics (j : Journal) (e : Event) :
    (j.record e).diagnostics.toList = j.diagnostics.toList ++ e.report?.toList := by
  cases e <;> simp [record, Event.report?]

theorem Journal.recordAll_diagnostics (j : Journal) (es : List Event) :
    (j.recordAll es).diagnostics.toList = j.diagnostics.toList ++ es.filterMap Event.report? := by
  induction es generalizing j with
  | nil => simp [recordAll]
  | cons e es ih =>
    have hcons : j.recordAll (e :: es) = (j.record e).recordAll es := rfl
    rw [hcons, ih, record_diagnostics, List.append_assoc]
    cases hreport : e.report? <;> simp [hreport]

theorem Journal.recordAll_events (j : Journal) (es : List Event) :
    (j.recordAll es).events.toList = j.events.toList ++ es := by
  induction es generalizing j with
  | nil => simp [recordAll]
  | cons e es ih =>
    have hcons : j.recordAll (e :: es) = (j.record e).recordAll es := rfl
    have hrecord : (j.record e).events.toList = j.events.toList ++ [e] := by
      cases e <;> simp [record]
    rw [hcons, ih, hrecord, List.append_assoc, List.singleton_append]

/-- The second journal continues the first one, with events of which all have the property. -/
def Journal.Continues (P : Event → Prop) (j j' : Journal) : Prop :=
  ∃ notes, j' = j.recordAll notes ∧ ∀ e ∈ notes, P e

namespace Journal.Continues

variable {P Q : Event → Prop} {j j' j'' : Journal}

theorem refl (P : Event → Prop) (j : Journal) : Continues P j j :=
  ⟨[], rfl, fun _ h => absurd h List.not_mem_nil⟩

theorem trans (h : Continues P j j') (h' : Continues P j' j'') : Continues P j j'' := by
  obtain ⟨notes, rfl, hnotes⟩ := h
  obtain ⟨notes', rfl, hnotes'⟩ := h'
  refine ⟨notes ++ notes', List.foldl_append.symm, fun e he => ?_⟩
  rcases List.mem_append.mp he with he | he
  · exact hnotes e he
  · exact hnotes' e he

theorem record {e : Event} (he : P e) : Continues P j (j.record e) :=
  ⟨[e], rfl, List.forall_mem_singleton.mpr he⟩

theorem mono (h : Continues P j j') (hPQ : ∀ e, P e → Q e) : Continues Q j j' := by
  obtain ⟨notes, hnotes, hall⟩ := h
  exact ⟨notes, hnotes, fun e he => hPQ e (hall e he)⟩

end Journal.Continues

/-! ## 3. Commands and lists of statements -/

namespace Stage

/-- A key guard passes on the command behind it. -/
theorem exec_key (line : Nat) (key : String) (c : Command) (s : Stage) :
    exec line (.on (.key key) c) s
      = if s.scene.keys.isDown key then
          exec line c (s.log (.command line (Command.on (.key key) c).tag))
        else .ok (s.log (.command line (Command.on (.key key) c).tag), .ok none) := rfl

/-- The stage behind a command: a failure is reported. -/
def noted : Stage × Except RunError (Option Float) → Stage
  | (s, .ok _) => s
  | (s, .error e) => s.log (.reported (.ofError e))

theorem run_eq (s : Stage) (st : Statement) :
    s.run st = (exec st.line st.command s).map noted := by
  unfold run
  rcases exec st.line st.command s with o | ⟨s, e | x⟩ <;> rfl

theorem runAll_cons (st : Statement) (sts : List Statement) (s : Stage) :
    runAll (st :: sts) s = (s.run st).bind (runAll sts) := by
  simp only [runAll]
  cases s.run st <;> rfl

theorem runAll_append (sts sts' : List Statement) (s : Stage) :
    runAll (sts ++ sts') s = (runAll sts s).bind (runAll sts') := by
  induction sts generalizing s with
  | nil => rfl
  | cons st sts ih =>
    rw [List.cons_append, runAll_cons, runAll_cons]
    cases s.run st with
    | error o => rfl
    | ok s' => exact ih s'

end Stage
end StageScript

/-
# How a command goes

`Executed` lists the ways in which a command can have a result, one constructor each, so that a
proof about commands is one case for each of them and opens no definition.  A key that is held
passes on to the command behind it, and that is the only recursion.

What a command leaves in the journal is settled here once and for all.  Evaluations report, and
what they report is never the failure of a command (`Cause.ofEvaluation`).  An action writes
reports about its own line (`Event.OfAction`), and one that fails has written nothing but reports
of evaluations, on a scene that is still the one it was given (`Outcome.Sound`).  A command adds
an event for each of its parts that is carried out (`Event.IsOf`).
-/
import StageScript.Proofs.Expr.Evaluation
import StageScript.Proofs.Stage.Results

namespace StageScript

/-! ## 1. What actions write -/

/-- The event reports an evaluation on the given line. -/
def Event.OfEvaluation (line : Nat) (e : Event) : Prop :=
  ∃ d : Diagnostic, d.OfEvaluation line ∧ e = .reported d

/-- What an action on the given line may write. -/
inductive Event.OfAction (line : Nat) : Event → Prop where
  | reported {d : Diagnostic} : d.line = some line → OfAction line (.reported d)
  | soundQueued (name : String) : OfAction line (.soundQueued name)
  | redeclared (name : String) : OfAction line (.redeclared name)

theorem Event.OfEvaluation.ofAction {line : Nat} {e : Event} (h : e.OfEvaluation line) :
    e.OfAction line := by
  obtain ⟨d, ⟨c, -, rfl⟩, rfl⟩ := h
  exact .reported rfl

namespace Scene

variable {s : Scene} {line : Nat}

/-- All events report evaluations on the given line. -/
def Evaluated (line : Nat) (notes : List Event) : Prop := ∀ e ∈ notes, e.OfEvaluation line

theorem Evaluated.nil : Evaluated line [] := fun _ h => absurd h List.not_mem_nil

theorem Evaluated.append {notes notes' : List Event} (h : Evaluated line notes)
    (h' : Evaluated line notes') : Evaluated line (notes ++ notes') := by
  intro e he
  rcases List.mem_append.mp he with he | he
  · exact h e he
  · exact h' e he

theorem Evaluated.of_reports {ds : List Diagnostic} (h : ∀ d ∈ ds, d.OfEvaluation line) :
    Evaluated line (ds.map .reported) := by
  intro e he
  obtain ⟨d, hd, rfl⟩ := List.mem_map.mp he
  exact ⟨d, h d hd, rfl⟩

theorem evaluated_value (s : Scene) (line : Nat) (x : Expr) : Evaluated line (s.value line x).2 :=
  .of_reports (Expr.evaluateAs_reports s.entities s.vars line x.text x)

theorem evaluated_place (s : Scene) (line : Nat) (p : Point) : Evaluated line (s.place line p).2 :=
  (s.evaluated_value line p.x).append (s.evaluated_value line p.y)

theorem evaluated_sourceValue (s : Scene) (line : Nat) (x : ExprSource) :
    Evaluated line (s.sourceValue line x).2 :=
  .of_reports (x.evaluate_reports s.entities s.vars line)

theorem evaluated_withProperty (s : Scene) (line : Nat) (e : Entity) (property : String)
    (v : PropertyValue) : Evaluated line (s.withProperty line e property v).2.2 := by
  cases v with
  | number source => exact s.evaluated_sourceValue line source
  | _ => exact .nil

/-- What holds of the outcome of every action: its notes are those of an action, and if it failed
it has changed nothing, and written only what evaluations report. -/
structure Outcome.Sound (s : Scene) (line : Nat) (o : Outcome) : Prop where
  notes : ∀ e ∈ o.notes, e.OfAction line
  failed : ∀ c, o.result = .error c →
    o.scene = s ∧ c.ofEvaluation = false ∧ Evaluated line o.notes

theorem Outcome.Sound.of_ok {o : Outcome} {x : Option Float} (hresult : o.result = .ok x)
    (h : ∀ e ∈ o.notes, e.OfAction line) : o.Sound s line := by
  refine ⟨h, fun c hc => ?_⟩
  rw [hresult] at hc
  simp at hc

theorem Outcome.Sound.done {s' : Scene} {notes : List Event} (h : Evaluated line notes) :
    (Outcome.done s' notes).Sound s line :=
  .of_ok rfl fun e he => (h e he).ofAction

theorem Outcome.Sound.fail {notes : List Event} {c : RunError.Cause} (h : Evaluated line notes)
    (hc : c.ofEvaluation = false) : (Outcome.failed s notes c).Sound s line := by
  refine ⟨fun e he => (h e he).ofAction, fun c' hc' => ?_⟩
  obtain rfl : c = c' := Except.error.inj hc'
  exact ⟨rfl, hc, h⟩

theorem declareEntity_sound (s : Scene) (name : String) (e : Entity) {notes : List Event}
    (h : Evaluated line notes) : (s.declareEntity name e notes).Sound s line := by
  refine .of_ok rfl fun e' he' => ?_
  rcases List.mem_append.mp he' with he' | he'
  · exact (h e' he').ofAction
  · split at he'
    · obtain rfl := List.mem_singleton.mp he'
      exact .redeclared name
    · exact absurd he' List.not_mem_nil

/-- An asset that is not found is the failure of a command. -/
theorem ofEvaluation_of_findAsset {use : AssetUse} {path : String} {c : RunError.Cause}
    (h : s.findAsset use path = .error c) : c.ofEvaluation = false := by
  simp only [findAsset] at h
  split at h
  · split at h
    · split at h
      · simp at h
      · obtain rfl := Except.error.inj h
        rfl
    · obtain rfl := Except.error.inj h
      rfl
  · obtain rfl := Except.error.inj h
    rfl

theorem declare_sound (s : Scene) (line : Nat) (name : String) (d : Declaration) :
    (s.declare line name d).Sound s line := by
  cases d with
  | box x y w h =>
    exact s.declareEntity_sound name _ ((((s.evaluated_value line x).append
      (s.evaluated_value line y)).append (s.evaluated_value line w)).append
      (s.evaluated_value line h))
  | image path position w h =>
    simp only [declare]
    split
    · rename_i c hc
      exact .fail .nil (ofEvaluation_of_findAsset hc)
    · exact s.declareEntity_sound name _ (((s.evaluated_place line position).append
        (s.evaluated_value line w)).append (s.evaluated_value line h))
  | text text position size color font =>
    exact s.declareEntity_sound name _ ((s.evaluated_place line position).append
      (s.evaluated_value line size))
  | random range => exact .done .nil
  | number x => exact .done (s.evaluated_value line x)

theorem setProperty_sound (s : Scene) (line : Nat) (entity property : String)
    (v : PropertyValue) : (s.setProperty line entity property v).Sound s line := by
  unfold setProperty
  split
  · exact .fail .nil rfl
  · rename_i e _
    have hnotes := s.evaluated_withProperty line e property v
    split
    rename_i result shown notes hproperty
    rw [hproperty] at hnotes
    split
    · exact .done hnotes
    · exact .fail hnotes rfl
    · exact .fail hnotes rfl

/-- **The outcome of every action is sound.** -/
theorem perform_sound (s : Scene) (line : Nat) (a : Action) : (s.perform line a).Sound s line := by
  cases a with
  | say text =>
    refine .of_ok rfl fun e he => ?_
    obtain rfl := List.mem_singleton.mp he
    exact .reported rfl
  | setColor token => exact .done .nil
  | setBackground token => exact .done .nil
  | drawCircle center radius =>
    exact .done ((s.evaluated_place line center).append (s.evaluated_value line radius))
  | drawLine start finish width =>
    exact .done (((s.evaluated_place line start).append (s.evaluated_place line finish)).append
      (s.evaluated_value line width))
  | playSound path =>
    simp only [perform]
    split
    · rename_i c hc
      exact .fail .nil (ofEvaluation_of_findAsset hc)
    · rename_i asset _
      refine .of_ok rfl fun e he => ?_
      obtain rfl := List.mem_singleton.mp he
      exact .soundQueued asset.name
  | declare name d => exact s.declare_sound line name d
  | assign name source =>
    simp only [perform]
    split
    · exact .done (s.evaluated_sourceValue line source)
    · exact .fail .nil rfl
  | setProperty entity property v => exact s.setProperty_sound line entity property v
  | add name amount =>
    simp only [perform]
    split
    · exact .fail .nil rfl
    · exact .done .nil
  | random range => exact .of_ok rfl fun e he => absurd he List.not_mem_nil
  | rotate entity degrees =>
    simp only [perform]
    split
    · exact .fail .nil rfl
    · split
      · exact .done .nil
      · exact .fail .nil rfl

end Scene

/-! ## 2. The ways in which a command goes -/

namespace Stage

/-- How a command on the given line goes, the stage behind it, and its result. -/
inductive Executed (line : Nat) :
    Command → Stage → Stage → Except RunError (Option Float) → Prop where
  /-- An action is carried out, or fails. -/
  | act (a : Action) (s : Stage) :
      Executed line (.act a) s
        ⟨(s.scene.perform line a).scene,
          (s.log (.command line (Command.act a).tag)).journal.recordAll
            (s.scene.perform line a).notes⟩
        ((s.scene.perform line a).result.mapError fun c => ⟨c, line⟩)
  /-- A click is listened to. -/
  | listen (c : Command) (s : Stage) :
      Executed line (.on .click c) s
        (((s.log (.command line (Command.on .click c).tag)).withScene
          { s.scene with clicks := s.scene.clicks ++ [⟨line, c⟩] }).log (.listenerRegistered line))
        (.ok none)
  /-- The seconds are no period of a timer. -/
  | refused {seconds : Float} (c : Command) (s : Stage) :
      period? s.scene.config seconds = none →
      Executed line (.on (.every seconds) c) s
        (s.log (.command line (Command.on (.every seconds) c).tag))
        (.error ⟨.timerPeriod seconds, line⟩)
  /-- A timer is set. -/
  | register {seconds : Float} {period : Duration} {c : Command} {s : Stage} {id : Nat}
      {ts : Timers} :
      period? s.scene.config seconds = some period →
      s.scene.timers.register period ⟨line, c⟩ = .ok (id, ts) →
      Executed line (.on (.every seconds) c) s
        (((s.log (.command line (Command.on (.every seconds) c).tag)).withScene
          { s.scene with timers := ts }).log (.timerRegistered line id period))
        (.ok none)
  /-- The key is not held. -/
  | up {key : String} (c : Command) (s : Stage) :
      s.scene.keys.isDown key = false →
      Executed line (.on (.key key) c) s (s.log (.command line (Command.on (.key key) c).tag))
        (.ok none)
  /-- The key is held. -/
  | down {key : String} {c : Command} {s s' : Stage} {result : Except RunError (Option Float)} :
      s.scene.keys.isDown key = true →
      Executed line c (s.log (.command line (Command.on (.key key) c).tag)) s' result →
      Executed line (.on (.key key) c) s s' result

theorem executed_of_exec {line : Nat} :
    ∀ {c : Command} {s s' : Stage} {result : Except RunError (Option Float)},
    exec line c s = .ok (s', result) → Executed line c s s' result
  | .act a, s, s', result, h => by
    simp only [exec, Except.ok.injEq, Prod.mk.injEq] at h
    obtain ⟨rfl, rfl⟩ := h
    exact .act a s
  | .on .click c, s, s', result, h => by
    simp only [exec, Except.ok.injEq, Prod.mk.injEq] at h
    obtain ⟨rfl, rfl⟩ := h
    exact .listen c s
  | .on (.every seconds) c, s, s', result, h => by
    simp only [exec] at h
    split at h
    · rename_i hperiod
      simp only [Except.ok.injEq, Prod.mk.injEq] at h
      obtain ⟨rfl, rfl⟩ := h
      exact .refused c s hperiod
    · rename_i period hperiod
      split at h
      · simp at h
      · rename_i id ts hregister
        simp only [Except.ok.injEq, Prod.mk.injEq] at h
        obtain ⟨rfl, rfl⟩ := h
        exact .register hperiod hregister
  | .on (.key key) c, s, s', result, h => by
    rw [exec_key] at h
    split at h
    · rename_i hdown
      exact .down hdown (executed_of_exec h)
    · rename_i hup
      simp only [Except.ok.injEq, Prod.mk.injEq] at h
      obtain ⟨rfl, rfl⟩ := h
      exact .up c s (Bool.not_eq_true _ ▸ hup)

end Stage

/-! ## 3. What commands write -/

/-- The command, or one that stands in it behind triggers, at any depth. -/
inductive Command.IsPartOf : Command → Command → Prop where
  | refl (c : Command) : IsPartOf c c
  | on {part c : Command} (t : Trigger) : IsPartOf part c → IsPartOf part (.on t c)

theorem Command.IsPartOf.trans {a b c : Command} (hab : a.IsPartOf b) (hbc : b.IsPartOf c) :
    a.IsPartOf c := by
  induction hbc with
  | refl => exact hab
  | on t _ ih => exact .on t ih

/-- What a command on the given line may write: an event for each of its parts that is carried
out, and what actions and registrations on that line write. -/
inductive Event.IsOf (line : Nat) (c : Command) : Event → Prop where
  | command {part : Command} : part.IsPartOf c → IsOf line c (.command line part.tag)
  | action {e : Event} : e.OfAction line → IsOf line c e
  | listener : IsOf line c (.listenerRegistered line)
  | timer (id : Nat) (period : Duration) : IsOf line c (.timerRegistered line id period)

theorem Event.IsOf.on {line : Nat} {c : Command} {e : Event} (h : e.IsOf line c) (t : Trigger) :
    e.IsOf line (.on t c) := by
  cases h with
  | command hpart => exact .command (.on t hpart)
  | action h => exact .action h
  | listener => exact .listener
  | timer id period => exact .timer id period

namespace Stage

variable {line : Nat} {c : Command} {s s' : Stage} {result : Except RunError (Option Float)}

/-- A command begins by writing its own event. -/
theorem continues_log (line : Nat) (c : Command) (s : Stage) :
    s.journal.Continues (Event.IsOf line c) (s.log (.command line c.tag)).journal :=
  .record (Event.IsOf.command (.refl c))

/-- **A command writes what is its own.** -/
theorem Executed.continues (h : Executed line c s s' result) :
    s.journal.Continues (Event.IsOf line c) s'.journal := by
  induction h with
  | act a s =>
    have hnotes := (s.scene.perform_sound line a).notes
    exact (continues_log line _ s).trans ⟨_, rfl, fun e he => .action (hnotes e he)⟩
  | listen c s => exact (continues_log line _ s).trans (.record Event.IsOf.listener)
  | refused c s _ => exact continues_log line _ s
  | @register seconds period c s id ts _ _ =>
    exact (continues_log line _ s).trans (.record (Event.IsOf.timer id period))
  | up c s _ => exact continues_log line _ s
  | @down key c s s' result _ _ ih =>
    exact (continues_log line (.on (.key key) c) s).trans (ih.mono fun _ he => he.on _)

/-- A statement does what its command does, and reports a failure of it. -/
theorem executed_of_run {st : Statement} (h : s.run st = .ok s') :
    ∃ s₁ result, Executed st.line st.command s s₁ result ∧ s' = noted (s₁, result) := by
  rw [run_eq] at h
  cases hexec : exec st.line st.command s with
  | error o => simp [hexec, Except.map] at h
  | ok x =>
    rw [hexec] at h
    exact ⟨x.1, x.2, executed_of_exec hexec, (Except.ok.inj h).symm⟩

@[simp] theorem noted_scene (x : Stage × Except RunError (Option Float)) :
    (noted x).scene = x.1.scene := by
  obtain ⟨s, e | x⟩ := x <;> rfl

end Stage
end StageScript

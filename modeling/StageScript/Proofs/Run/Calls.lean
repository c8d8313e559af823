/-
# What a call does

A host knows a run by its calls.  `Called` says how each of them goes when it has a result, so
that a proof about all calls is one case for each of them and opens no definition of a call.

Most invariants speak of the scene alone.  `Scene.Upheld` lists what the calls of a running run do
to a scene, one piece at a time: they carry out actions, register listeners and timers, empty the
scene, move the clock, and so on.  A property that survives every piece survives each of these
calls, and one that survives other assets too survives every call (`Stable.of_calls`).
-/
import Mathlib.Logic.Basic
import StageScript.Proofs.Stage.Frame
import StageScript.Run

namespace StageScript

/-! ## 1. Calls that have a result -/

theorem exists_of_map_eq_ok {ε α β : Type} {x : Except ε α} {f : α → β} {b : β}
    (h : x.map f = .ok b) : ∃ a, x = .ok a ∧ f a = b := by
  cases x with
  | error e => simp [Except.map] at h
  | ok a => exact ⟨a, rfl, Except.ok.inj h⟩

theorem except_map_map {ε α β γ : Type} (x : Except ε α) (f : α → β) (g : β → γ) :
    (x.map f).map g = x.map (g ∘ f) := by
  cases x <;> rfl

namespace Run

variable {r r' : Run}

/-- How a call goes, what it hands back, and the run behind it. -/
inductive Called (r : Run) : Call → Answer → Run → Prop where
  | setup {r' : Run} : r.setup = .ok r' → Called r .setup .nothing r'
  | update {r' : Run} : r.update = .ok r' → Called r .update .nothing r'
  | advance {dt : Duration} {r' : Run} :
      r.advance dt = .ok r' → Called r (.advance dt) .nothing r'
  | draw (ready : Ready) :
      Called r (.draw ready) (.painted (r.draw ready).1) (r.draw ready).2
  | frame {dt : Duration} {r₁ r₂ : Run} (ready : Ready) :
      r.advance dt = .ok r₁ → r₁.update = .ok r₂ →
      Called r (.frame dt ready) (.painted (r₂.draw ready).1) (r₂.draw ready).2
  | preview {r₁ : Run} (ready : Ready) :
      r.setup = .ok r₁ →
      Called r (.preview ready) (.painted (r₁.draw ready).1) (r₁.draw ready).2.stop
  | stop : Called r .stop .nothing r.stop
  | load (script : Script) : Called r (.load script) .nothing (r.load script)
  | setAssets (assets : Library) : Called r (.setAssets assets) .nothing (r.setAssets assets)
  | input {i : Input} {r' : Run} : r.dispatch i = .ok r' → Called r (.input i) .nothing r'
  | takeDiagnostics :
      Called r .takeDiagnostics (.diagnostics r.takeDiagnostics.1) r.takeDiagnostics.2
  | takeSounds : Called r .takeSounds (.sounds r.takeSounds.1) r.takeSounds.2

theorem frame_eq (r : Run) (dt : Duration) (ready : Ready) :
    r.frame dt ready = ((r.advance dt).bind update).map (·.draw ready) := by
  simp only [frame, bind, Except.bind]
  cases r.advance dt with
  | error o => rfl
  | ok r₁ => cases r₁.update <;> rfl

theorem preview_eq (r : Run) (ready : Ready) :
    r.preview ready = r.setup.map fun r => ((r.draw ready).1, (r.draw ready).2.stop) := by
  simp only [preview, bind, Except.bind]
  cases r.setup <;> rfl

/-- What a frame leaves behind. -/
theorem call_frame_snd (r : Run) (dt : Duration) (ready : Ready) :
    (r.call (.frame dt ready)).map Prod.snd
      = ((r.advance dt).bind update).map fun r => (r.draw ready).2 := by
  simp only [call, frame_eq, except_map_map]
  rfl

/-- What a preview leaves behind. -/
theorem call_preview_snd (r : Run) (ready : Ready) :
    (r.call (.preview ready)).map Prod.snd = r.setup.map fun r => (r.draw ready).2.stop := by
  simp only [call, preview_eq, except_map_map]
  rfl

theorem called_of_call {c : Call} {a : Answer} (h : r.call c = .ok (a, r')) :
    Called r c a r' := by
  cases c with
  | setup =>
    obtain ⟨r₁, hr, heq⟩ := exists_of_map_eq_ok h
    obtain ⟨rfl, rfl⟩ := Prod.mk.inj heq
    exact .setup hr
  | update =>
    obtain ⟨r₁, hr, heq⟩ := exists_of_map_eq_ok h
    obtain ⟨rfl, rfl⟩ := Prod.mk.inj heq
    exact .update hr
  | advance dt =>
    obtain ⟨r₁, hr, heq⟩ := exists_of_map_eq_ok h
    obtain ⟨rfl, rfl⟩ := Prod.mk.inj heq
    exact .advance hr
  | draw ready =>
    obtain ⟨rfl, rfl⟩ := Prod.mk.inj (Except.ok.inj h)
    exact .draw ready
  | frame dt ready =>
    obtain ⟨⟨ps, r₁⟩, hr, heq⟩ := exists_of_map_eq_ok h
    obtain ⟨rfl, rfl⟩ := Prod.mk.inj heq
    rw [frame_eq] at hr
    obtain ⟨r₂, hbind, hdraw⟩ := exists_of_map_eq_ok hr
    cases ha : r.advance dt with
    | error o => simp [ha, Except.bind] at hbind
    | ok r₃ =>
      rw [ha] at hbind
      have hframe := Called.frame ready ha hbind
      rw [hdraw] at hframe
      exact hframe
  | preview ready =>
    obtain ⟨⟨ps, r₁⟩, hr, heq⟩ := exists_of_map_eq_ok h
    obtain ⟨rfl, rfl⟩ := Prod.mk.inj heq
    rw [preview_eq] at hr
    obtain ⟨r₂, hsetup, hdraw⟩ := exists_of_map_eq_ok hr
    obtain ⟨rfl, rfl⟩ := Prod.mk.inj hdraw
    exact .preview ready hsetup
  | stop =>
    obtain ⟨rfl, rfl⟩ := Prod.mk.inj (Except.ok.inj h)
    exact .stop
  | load script =>
    obtain ⟨rfl, rfl⟩ := Prod.mk.inj (Except.ok.inj h)
    exact .load script
  | setAssets assets =>
    obtain ⟨rfl, rfl⟩ := Prod.mk.inj (Except.ok.inj h)
    exact .setAssets assets
  | input i =>
    obtain ⟨r₁, hr, heq⟩ := exists_of_map_eq_ok h
    obtain ⟨rfl, rfl⟩ := Prod.mk.inj heq
    exact .input hr
  | takeDiagnostics =>
    obtain ⟨rfl, rfl⟩ := Prod.mk.inj (Except.ok.inj h)
    exact .takeDiagnostics
  | takeSounds =>
    obtain ⟨rfl, rfl⟩ := Prod.mk.inj (Except.ok.inj h)
    exact .takeSounds

theorem calls_cons (r : Run) (c : Call) (cs : List Call) :
    r.calls (c :: cs)
      = (r.call c).bind fun x => (x.2.calls cs).map fun y => (x.1 :: y.1, y.2) := by
  simp only [calls]
  cases r.call c <;> rfl

/-- The first call and the calls behind it. -/
theorem exists_of_calls_cons {c : Call} {cs : List Call} {as : List Answer}
    (h : r.calls (c :: cs) = .ok (as, r')) :
    ∃ a r₁ as₁, r.call c = .ok (a, r₁) ∧ r₁.calls cs = .ok (as₁, r') ∧ as = a :: as₁ := by
  simp only [calls] at h
  split at h
  · simp at h
  · rename_i a r₁ hc
    obtain ⟨⟨as₁, r₂⟩, hcs, heq⟩ := exists_of_map_eq_ok h
    obtain ⟨rfl, rfl⟩ := Prod.mk.inj heq
    exact ⟨a, r₁, as₁, hc, hcs, rfl⟩

/-- The calls of a first part of a history and those behind it. -/
theorem exists_of_calls_append : ∀ (cs : List Call) {cs' : List Call} {r r' : Run}
    {as : List Answer}, r.calls (cs ++ cs') = .ok (as, r') →
    ∃ as₁ r₁ as₂, r.calls cs = .ok (as₁, r₁) ∧ r₁.calls cs' = .ok (as₂, r') ∧
      as = as₁ ++ as₂ ∧ as₁.length = cs.length
  | [], cs', r, r', as, h => ⟨[], r, as, rfl, h, rfl, rfl⟩
  | c :: cs, cs', r, r', as, h => by
    obtain ⟨a, r₁, as', hc, hcs, rfl⟩ := exists_of_calls_cons h
    obtain ⟨as₁, r₂, as₂, hfirst, hrest, rfl, hlength⟩ := exists_of_calls_append cs hcs
    refine ⟨a :: as₁, r₂, as₂, ?_, hrest, rfl, congrArg (· + 1) hlength⟩
    simp only [calls, hc, hfirst, Except.map]

/-- One more call behind a history. -/
theorem calls_concat : ∀ {cs : List Call} {r r₁ r₂ : Run} {as : List Answer} {c : Call}
    {a : Answer}, r.calls cs = .ok (as, r₁) → r₁.call c = .ok (a, r₂) →
    r.calls (cs ++ [c]) = .ok (as ++ [a], r₂)
  | [], r, r₁, r₂, as, c, a, h, hc => by
    obtain ⟨rfl, rfl⟩ := Prod.mk.inj (Except.ok.inj h)
    simp only [List.nil_append, calls, hc, Except.map]
  | c' :: cs, r, r₁, r₂, as, c, a, h, hc => by
    obtain ⟨a', r', as', hc', hcs, rfl⟩ := exists_of_calls_cons h
    simp only [List.cons_append, calls, hc', calls_concat hcs hc, Except.map]

/-- **What survives every call survives every history.** -/
theorem of_calls {P : Run → Prop}
    (hcall : ∀ {r r' : Run} {c : Call} {a : Answer}, Called r c a r' → P r → P r') :
    ∀ (cs : List Call) {r r' : Run} {as : List Answer}, r.calls cs = .ok (as, r') → P r → P r'
  | [], r, r', _, h, hr => by
    obtain ⟨-, rfl⟩ := Prod.mk.inj (Except.ok.inj h)
    exact hr
  | c :: cs, r, r', _, h, hr => by
    obtain ⟨a, r₁, as₁, hc, hcs, -⟩ := exists_of_calls_cons h
    exact of_calls hcall cs hcs (hcall (called_of_call hc) hr)

/-- A property that survives every call and is handed on to its answer holds of all answers of a
history. -/
theorem of_answers {P : Run → Prop} {Q : Answer → Prop}
    (hcall : ∀ {r r' : Run} {c : Call} {a : Answer}, Called r c a r' → P r → Q a ∧ P r') :
    ∀ (cs : List Call) {r r' : Run} {as : List Answer}, r.calls cs = .ok (as, r') → P r →
    ∀ a ∈ as, Q a
  | [], r, r', _, h, _ => by
    obtain ⟨rfl, -⟩ := Prod.mk.inj (Except.ok.inj h)
    exact fun _ ha => absurd ha List.not_mem_nil
  | c :: cs, r, r', _, h, hr => by
    obtain ⟨a, r₁, as₁, hc, hcs, rfl⟩ := exists_of_calls_cons h
    obtain ⟨hfirst, hr₁⟩ := hcall (called_of_call hc) hr
    exact List.forall_mem_cons.mpr ⟨hfirst, of_answers hcall cs hcs hr₁⟩

/-- The history has a result, and the run behind it passes a test. -/
def endsIn (r : Run) (cs : List Call) (test : Run → Bool) : Bool :=
  match r.calls cs with
  | .ok (_, r) => test r
  | .error _ => false

theorem exists_of_endsIn {cs : List Call} {test : Run → Bool} (h : r.endsIn cs test = true) :
    ∃ as r', r.calls cs = .ok (as, r') ∧ test r' = true := by
  unfold endsIn at h
  split at h
  · rename_i as r' hcs
    exact ⟨as, r', hcs, h⟩
  · simp at h

/-! ## 2. The parts of a call -/

theorem exists_of_carryOut {sts : List Statement} (h : r.carryOut sts = .ok r') :
    ∃ stage, Stage.runAll sts r.stage = .ok stage ∧ r' = { r with stage := stage } := by
  obtain ⟨stage, hrun, heq⟩ := exists_of_map_eq_ok h
  exact ⟨stage, hrun, heq.symm⟩

theorem exists_of_setup (h : r.setup = .ok r') :
    ∃ r₁, r.begun.carryOut r.script.setup = .ok r₁ ∧ r' = r₁.settled := by
  obtain ⟨r₁, hrun, heq⟩ := exists_of_map_eq_ok h
  exact ⟨r₁, hrun, heq.symm⟩

theorem isRunning_iff (r : Run) : r.isRunning = true ↔ r.phase = .running := by
  simp [isRunning]

/-- An update of a run that is running, or none. -/
theorem cases_of_update (h : r.update = .ok r') :
    (r.phase = .running ∧ r.carryOut r.script.perFrame = .ok r') ∨
      (r.phase ≠ .running ∧ r' = r) := by
  unfold update at h
  split at h
  · rename_i hrun
    exact Or.inl ⟨r.isRunning_iff.mp hrun, h⟩
  · rename_i hrun
    exact Or.inr ⟨r.isRunning_iff.not.mp hrun, (Except.ok.inj h).symm⟩

/-- A step of the clock of a run that is running, or none. -/
theorem cases_of_advance {dt : Duration} (h : r.advance dt = .ok r') :
    (r.phase = .running ∧ ∃ fired ts, r.stage.scene.timers.advance dt = .ok (fired, ts) ∧
        (r.aged.withTimers ts).carryOut fired = .ok r') ∨
      (r.phase ≠ .running ∧ r' = r) := by
  unfold advance at h
  split at h
  · rename_i hrun
    refine Or.inl ⟨r.isRunning_iff.mp hrun, ?_⟩
    split at h
    · simp at h
    · rename_i fired ts hts
      exact ⟨fired, ts, hts, h⟩
  · rename_i hrun
    exact Or.inr ⟨r.isRunning_iff.not.mp hrun, (Except.ok.inj h).symm⟩

/-- A click on a run that is running, or none. -/
theorem cases_of_click {x y : Float} (h : r.dispatch (.click x y) = .ok r') :
    (r.phase = .running ∧ (r.pointed x y).carryOut r.stage.scene.clicks = .ok r') ∨
      (r.phase ≠ .running ∧ r' = r) := by
  simp only [dispatch] at h
  split at h
  · rename_i hrun
    exact Or.inl ⟨r.isRunning_iff.mp hrun, h⟩
  · rename_i hrun
    exact Or.inr ⟨r.isRunning_iff.not.mp hrun, (Except.ok.inj h).symm⟩

theorem stop_scene (r : Run) : r.stop.stage.scene = r.cleared.stage.scene := by
  simp only [stop]
  split <;> split <;> rfl

theorem script_stop (r : Run) : r.stop.script = r.script := by
  simp only [stop]
  split <;> split <;> rfl

theorem generation_stop (r : Run) : r.stop.generation = r.generation := by
  simp only [stop]
  split <;> split <;> rfl

theorem phase_stop (r : Run) :
    r.stop.phase = if r.phase = .ready then .ready else .stopped := by
  cases hphase : r.phase <;> simp [stop, isRunning, hphase, cleared, withScene, log]

/-- The diagnostics that wait to be taken. -/
def waiting (r : Run) : List Diagnostic := r.stage.journal.diagnostics.toList

theorem waiting_begun (r : Run) : r.begun.waiting = r.waiting := rfl

theorem waiting_stop (r : Run) : r.stop.waiting = r.waiting := by
  cases hphase : r.phase <;> simp [stop, isRunning, hphase, cleared, withScene, log,
    Stage.log, Journal.record, waiting]

theorem draw_scene (r : Run) (ready : Ready) :
    (r.draw ready).2.stage.scene = r.stage.scene ∨
      (r.draw ready).2.stage.scene = r.stage.scene.drawn := by
  unfold draw
  split
  · exact Or.inr rfl
  · exact Or.inl rfl

end Run

/-! ## 3. Properties of the scene that survive every call -/

namespace Scene

/-- The property survives every single thing that a run does to its scene. -/
structure Upheld (P : Scene → Prop) : Prop where
  perform : ∀ s line a, P s → P (s.perform line a).scene
  listen : ∀ s st, P s → P { s with clicks := s.clicks ++ [st] }
  timers : ∀ s ts, P s → P (s.withTimers ts)
  reset : ∀ s g, P s → P (s.reset g)
  inSetup : ∀ s b, P s → P { s with inSetup := b }
  aged : ∀ s, P s → P s.ageOverlay
  drawn : ∀ s, P s → P s.drawn
  point : ∀ s x y, P s → P { s with
    vars := (s.vars.set s.config.pointerX x).set s.config.pointerY y }
  keys : ∀ s ks, P s → P { s with keys := ks }
  sounds : ∀ s, P s → P { s with sounds := [] }

/-- The property survives every single thing that a call does to a scene. -/
structure Stable (P : Scene → Prop) : Prop extends Upheld P where
  assets : ∀ s l, P s → P { s with assets := l }

namespace Upheld

variable {P : Scene → Prop} {r r' : Run}

/-- The scene that is left has the property, be it behind a call or where it went too far. -/
def Left (P : Scene → Prop) : Except Overflow Run → Prop
  | .ok r => P r.stage.scene
  | .error o => P o.stage.scene

theorem Left.of_ok {x : Except Overflow Run} (h : Left P x) (hx : x = .ok r) :
    P r.stage.scene := by
  rw [hx] at h
  exact h

theorem Left.bind {x : Except Overflow Run} {f : Run → Except Overflow Run} (h : Left P x)
    (hf : ∀ r, P r.stage.scene → Left P (f r)) : Left P (x >>= f) := by
  cases x with
  | error o => exact h
  | ok r => exact hf r h

theorem Left.map {x : Except Overflow Run} {f : Run → Run} (h : Left P x)
    (hf : ∀ r, P r.stage.scene → P (f r).stage.scene) : Left P (x.map f) := by
  cases x with
  | error o => exact h
  | ok r => exact hf r h

theorem left_carryOut (hP : Upheld P) (sts : List Statement) (hr : P r.stage.scene) :
    Left P (r.carryOut sts) := by
  unfold Run.carryOut
  cases hrun : Stage.runAll sts r.stage with
  | error o => exact Stage.scene_of_overflow hP.perform hP.listen hP.timers sts hrun hr
  | ok stage => exact Stage.scene_of_runAll hP.perform hP.listen hP.timers sts hrun hr

theorem left_setup (hP : Upheld P) (hr : P r.stage.scene) : Left P r.setup := by
  have hbegun : P r.begun.stage.scene := hP.inSetup _ true (hP.reset _ _ hr)
  exact (hP.left_carryOut r.script.setup hbegun).map fun r₁ => hP.inSetup _ false

theorem left_update (hP : Upheld P) (hr : P r.stage.scene) : Left P r.update := by
  unfold Run.update
  split
  · exact hP.left_carryOut _ hr
  · exact hr

theorem left_advance (hP : Upheld P) (dt : Duration) (hr : P r.stage.scene) :
    Left P (r.advance dt) := by
  have hmoved (ts : Timers) : P (r.aged.withTimers ts).stage.scene :=
    hP.timers _ ts (hP.aged _ hr)
  unfold Run.advance
  split
  · split
    · exact hmoved _
    · exact hP.left_carryOut _ (hmoved _)
  · exact hr

theorem left_dispatch (hP : Upheld P) (i : Input) (hr : P r.stage.scene) :
    Left P (r.dispatch i) := by
  cases i with
  | keyDown key => exact hP.keys _ _ hr
  | keyUp key => exact hP.keys _ _ hr
  | click x y =>
    simp only [Run.dispatch]
    split
    · exact hP.left_carryOut _ (hP.point _ x y hr)
    · exact hr

theorem of_carryOut (hP : Upheld P) {sts : List Statement} (h : r.carryOut sts = .ok r')
    (hr : P r.stage.scene) : P r'.stage.scene :=
  (hP.left_carryOut sts hr).of_ok h

theorem of_setup (hP : Upheld P) (h : r.setup = .ok r') (hr : P r.stage.scene) :
    P r'.stage.scene :=
  (hP.left_setup hr).of_ok h

theorem of_update (hP : Upheld P) (h : r.update = .ok r') (hr : P r.stage.scene) :
    P r'.stage.scene :=
  (hP.left_update hr).of_ok h

theorem of_advance (hP : Upheld P) {dt : Duration} (h : r.advance dt = .ok r')
    (hr : P r.stage.scene) : P r'.stage.scene :=
  (hP.left_advance dt hr).of_ok h

theorem of_dispatch (hP : Upheld P) {i : Input} (h : r.dispatch i = .ok r')
    (hr : P r.stage.scene) : P r'.stage.scene :=
  (hP.left_dispatch i hr).of_ok h

theorem of_draw (hP : Upheld P) (ready : Ready) (hr : P r.stage.scene) :
    P (r.draw ready).2.stage.scene := by
  rcases r.draw_scene ready with h | h
  · rw [h]
    exact hr
  · rw [h]
    exact hP.drawn _ hr

theorem of_stop (hP : Upheld P) (hr : P r.stage.scene) : P r.stop.stage.scene := by
  rw [r.stop_scene]
  exact hP.reset _ _ hr

end Upheld

namespace Stable

variable {P : Scene → Prop} {r r' : Run}

/-- **What survives every piece of a call survives the call.** -/
theorem of_called (hP : Stable P) {c : Run.Call} {a : Run.Answer} (h : Run.Called r c a r')
    (hr : P r.stage.scene) : P r'.stage.scene := by
  cases h with
  | setup h => exact hP.of_setup h hr
  | update h => exact hP.of_update h hr
  | advance h => exact hP.of_advance h hr
  | draw ready => exact hP.of_draw ready hr
  | frame ready ha hu => exact hP.of_draw ready (hP.of_update hu (hP.of_advance ha hr))
  | preview ready h => exact hP.of_stop (hP.of_draw ready (hP.of_setup h hr))
  | stop => exact hP.of_stop hr
  | load script => exact hP.of_stop hr
  | setAssets assets => exact hP.assets _ _ hr
  | input h => exact hP.of_dispatch h hr
  | takeDiagnostics => exact hr
  | takeSounds => exact hP.sounds _ hr

theorem of_calls (hP : Stable P) {cs : List Run.Call} {as : List Run.Answer}
    (h : r.calls cs = .ok (as, r')) (hr : P r.stage.scene) : P r'.stage.scene :=
  Run.of_calls (P := fun r => P r.stage.scene) hP.of_called cs h hr

open Upheld (Left)

/-- What survives every piece of a call survives the call, one that goes too far included. -/
theorem left_call (hP : Stable P) (c : Run.Call) (hr : P r.stage.scene) :
    Left P ((r.call c).map Prod.snd) := by
  have hanswer : ∀ {x : Except Overflow Run} {a : Run.Answer},
      Left P x → Left P ((x.map (a, ·)).map Prod.snd) := by
    intro x a hx
    cases x <;> exact hx
  cases c with
  | setup => exact hanswer (hP.left_setup hr)
  | update => exact hanswer (hP.left_update hr)
  | advance dt => exact hanswer (hP.left_advance dt hr)
  | input i => exact hanswer (hP.left_dispatch i hr)
  | frame dt ready =>
    have hboth : Left P ((r.advance dt).bind Run.update) :=
      (hP.left_advance dt hr).bind fun r₁ hr₁ => hP.left_update hr₁
    rw [Run.call_frame_snd]
    exact hboth.map fun r₂ hr₂ => hP.of_draw ready hr₂
  | preview ready =>
    rw [Run.call_preview_snd]
    exact (hP.left_setup hr).map fun r₁ hr₁ => hP.of_stop (hP.of_draw ready hr₁)
  | draw ready => exact hP.of_draw ready hr
  | stop => exact hP.of_stop hr
  | load script => exact hP.of_stop hr
  | setAssets assets => exact hP.assets _ _ hr
  | takeDiagnostics => exact hr
  | takeSounds => exact hP.sounds _ hr

/-- What survives every piece of a call survives a history, one that goes too far included. -/
theorem left_calls (hP : Stable P) : ∀ (cs : List Run.Call) {r : Run}, P r.stage.scene →
    Left P ((r.calls cs).map Prod.snd)
  | [], r, hr => hr
  | c :: cs, r, hr => by
    have hfirst := hP.left_call c hr
    rw [Run.calls_cons]
    cases hc : r.call c with
    | error o =>
      rw [hc] at hfirst
      exact hfirst
    | ok x =>
      rw [hc] at hfirst
      have hrest := hP.left_calls cs hfirst
      simp only [Except.bind, except_map_map]
      exact hrest

end Stable

/-- Nothing changes the settings of a run. -/
theorem stable_config (config : RunConfig) : Stable fun s => s.config = config where
  perform s line a hs := (s.perform_frame line a).config.trans hs
  listen _ _ hs := hs
  timers _ _ hs := hs
  reset _ _ hs := hs
  inSetup _ _ hs := hs
  aged _ hs := hs
  drawn _ hs := hs
  point _ _ _ hs := hs
  keys _ _ hs := hs
  assets _ _ hs := hs
  sounds _ hs := hs

end Scene

/-- A run keeps the settings it was made with. -/
theorem Run.config_of_calls {script : Script} {config : RunConfig} {cs : List Run.Call}
    {as : List Run.Answer} {r : Run} (h : (Run.new script config).calls cs = .ok (as, r)) :
    r.stage.scene.config = config :=
  (Scene.stable_config config).of_calls h rfl

end StageScript

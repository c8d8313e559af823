/-
# What a drawing paints

Between two drawings a scene keeps its strokes in three lists that rotate on different calls.
Here the same strokes are told by a log: one moment for every circle or line that is executed
behind the setup, one for every step of the clock that begins, one for every drawing, in the
order in which they happen (`Run.moments`).  The log knows nothing of the lists.

**The law.**  A drawing paints the background, the strokes of the setup, and then those strokes
of the log behind which nothing has been painted and at most one step has begun
(`Moment.recent 1`), above them the entities.

The lists follow from the log: the overlay holds what was executed since the last step, and the
carried strokes with the overlay what was executed since the step before it (`Run.Kept`).  Each
call keeps that up, whatever the order of the calls.
-/
import Mathlib.Data.List.Basic
import StageScript.Proofs.Run.Calls
import StageScript.Proofs.Stage.Strokes

namespace StageScript

/-! ## 1. Logs -/

/-- What matters to the strokes that are painted once. -/
inductive Moment where
  /-- A circle or a line is executed. -/
  | stroke (p : Paint)
  /-- A step of the clock begins. -/
  | step
  | drawing

namespace Moment

/-- The stroke that is executed. -/
def stroke? : Moment → Option Paint
  | stroke p => some p
  | _ => none

/-- A step of the clock begins. -/
def isStep : Moment → Bool
  | step => true
  | _ => false

/-- Something is painted. -/
def isDrawing : Moment → Bool
  | drawing => true
  | _ => false

/-- Nothing is painted in a stretch of a log, and at most `n` steps begin in it. -/
def isCalm (n : Nat) (log : List Moment) : Bool :=
  log.all (fun m => !m.isDrawing) && decide (log.countP isStep ≤ n)

/-- The strokes behind which nothing has been painted and at most `n` steps have begun, in the
order in which they were executed. -/
def recent (n : Nat) (log : List Moment) : List Paint :=
  (List.range log.length).filterMap fun i =>
    if isCalm n (log.drop (i + 1)) then log[i]?.bind stroke? else none

/-- The drawing at place `j` of a log paints the stroke at place `i`. -/
structure Reaches (log : List Moment) (i j : Nat) : Prop where
  stroke : ∃ p, log[i]? = some (.stroke p)
  drawing : log[j]? = some .drawing
  lt : i < j
  calm : isCalm 1 ((log.take j).drop (i + 1)) = true

variable {log : List Moment} {n i j j' : Nat}

theorem isCalm_iff :
    isCalm n log = true ↔ (∀ m ∈ log, m.isDrawing = false) ∧ log.countP isStep ≤ n := by
  simp [isCalm]

/-! ## 2. A log that grows -/

/-- One more moment: the strokes before it are judged by the longer stretch behind them. -/
theorem recent_concat (n : Nat) (log : List Moment) (m : Moment) :
    recent n (log ++ [m]) = ((List.range log.length).filterMap fun i =>
      if isCalm n (log.drop (i + 1) ++ [m]) then log[i]?.bind stroke? else none)
        ++ m.stroke?.toList := by
  have hlast : (log ++ [m]).drop (log.length + 1) = [] := by simp
  unfold recent
  rw [List.length_append, List.length_singleton, List.range_succ, List.filterMap_append]
  refine congrArg₂ _ (List.filterMap_congr fun i hi => ?_) ?_
  · have hlt : i < log.length := List.mem_range.mp hi
    rw [List.drop_append_of_le_length hlt, List.getElem?_append_left hlt]
  · rw [List.filterMap_cons, List.filterMap_nil, hlast]
    cases m <;> simp [isCalm, stroke?]

@[simp] theorem recent_concat_stroke (n : Nat) (log : List Moment) (p : Paint) :
    recent n (log ++ [.stroke p]) = recent n log ++ [p] := by
  have hcalm (l : List Moment) : isCalm n (l ++ [.stroke p]) = isCalm n l := by
    simp [isCalm, isDrawing, isStep]
  rw [recent_concat]
  simp only [hcalm]
  rfl

@[simp] theorem recent_concat_drawing (n : Nat) (log : List Moment) :
    recent n (log ++ [.drawing]) = [] := by
  have hcalm (l : List Moment) : isCalm n (l ++ [.drawing]) = false := by
    simp [isCalm, isDrawing]
  rw [recent_concat]
  simp [hcalm, stroke?]

@[simp] theorem recent_zero_concat_step (log : List Moment) : recent 0 (log ++ [.step]) = [] := by
  have hcalm (l : List Moment) : isCalm 0 (l ++ [.step]) = false := by
    simp [isCalm, isStep, List.countP_cons]
  rw [recent_concat]
  simp [hcalm, stroke?]

@[simp] theorem recent_succ_concat_step (n : Nat) (log : List Moment) :
    recent (n + 1) (log ++ [.step]) = recent n log := by
  have hcalm (l : List Moment) : isCalm (n + 1) (l ++ [.step]) = isCalm n l := by
    simp [isCalm, isDrawing, isStep, List.countP_cons]
  rw [recent_concat]
  simp only [hcalm, stroke?, Option.toList_none, List.append_nil]
  rfl

theorem recent_append_strokes (n : Nat) (log : List Moment) (ps : List Paint) :
    recent n (log ++ ps.map stroke) = recent n log ++ ps := by
  induction ps generalizing log with
  | nil => simp
  | cons p ps ih =>
    rw [List.map_cons, List.append_cons, ih, recent_concat_stroke, List.append_assoc,
      List.singleton_append]

/-! ## 3. A stroke is painted once -/

/-- No second drawing paints a stroke: the first one lies between the two. -/
theorem Reaches.not_lt (h : Reaches log i j) (h' : Reaches log i j') : ¬ j < j' := by
  intro hlt
  have hmem : Moment.drawing ∈ (log.take j').drop (i + 1) := by
    refine List.mem_iff_getElem?.mpr ⟨j - (i + 1), ?_⟩
    have hij := h.lt
    rw [List.getElem?_drop, List.getElem?_take, show i + 1 + (j - (i + 1)) = j by omega,
      if_pos hlt]
    exact h.drawing
  exact absurd ((isCalm_iff.mp h'.calm).1 _ hmem) (by simp [isDrawing])

theorem Reaches.unique (h : Reaches log i j) (h' : Reaches log i j') : j = j' := by
  have := h.not_lt h'
  have := h'.not_lt h
  omega

/-- Two further steps, and no drawing paints the stroke any more. -/
theorem not_reaches_of_steps (h : 2 ≤ ((log.take j).drop (i + 1)).countP isStep) :
    ¬ Reaches log i j := by
  intro hreach
  have := (isCalm_iff.mp hreach.calm).2
  omega

/-- A drawing before the second further step: then it or an earlier one paints the stroke. -/
theorem exists_reaches {p : Paint} (hstroke : log[i]? = some (.stroke p))
    (hdrawing : log[j]? = some .drawing) (hlt : i < j)
    (hsteps : ((log.take j).drop (i + 1)).countP isStep ≤ 1) : ∃ k ≤ j, Reaches log i k := by
  -- induction on the place of the drawing: an earlier one between the two is closer
  induction j using Nat.strongRecOn with
  | ind j ih =>
    by_cases hcalm : isCalm 1 ((log.take j).drop (i + 1)) = true
    · exact ⟨j, Nat.le_refl j, ⟨p, hstroke⟩, hdrawing, hlt, hcalm⟩
    · have hbetween : ∃ m ∈ (log.take j).drop (i + 1), m.isDrawing = true := by
        by_contra hnone
        push Not at hnone
        exact hcalm (isCalm_iff.mpr ⟨by simpa using hnone, hsteps⟩)
      obtain ⟨m, hmem, hm⟩ := hbetween
      obtain ⟨k, hk⟩ := List.mem_iff_getElem?.mp hmem
      obtain rfl : m = .drawing := by cases m <;> simp [isDrawing] at hm ⊢
      rw [List.getElem?_drop, List.getElem?_take] at hk
      split at hk
      · rename_i hkj
        have hsub : ((log.take (i + 1 + k)).drop (i + 1)).Sublist
            ((log.take j).drop (i + 1)) :=
          ((List.take_prefix_take_left (by omega)).sublist).drop _
        obtain ⟨k', hk', hreach⟩ := ih (i + 1 + k) hkj hk (by omega)
          (Nat.le_trans (hsub.countP_le) hsteps)
        exact ⟨k', by omega, hreach⟩
      · simp at hk

end Moment

/-! ## 4. The log of a run -/

namespace Run

/-- A call that neither begins nor ends a run: a part of a frame, what the person does, and what
the host takes or gives. -/
def Call.plays : Call → Bool
  | .update | .advance _ | .draw _ | .setAssets _ | .input _ | .takeDiagnostics | .takeSounds =>
    true
  | .setup | .frame _ _ | .preview _ | .stop | .load _ => false

/-- The strokes that statements execute, as moments. -/
def inks (r : Run) (sts : List Statement) : List Moment := (r.stage.strokes sts).map .stroke

/-- What a call adds to the log of a run that is running. -/
def momentsOf (r : Run) : Call → List Moment
  | .update => r.inks r.script.perFrame
  | .advance dt =>
    match r.stage.scene.timers.advance dt with
    | .error _ => []
    | .ok (fired, timers) => .step :: (r.aged.withTimers timers).inks fired
  | .draw _ => [.drawing]
  | .input (.click x y) => (r.pointed x y).inks r.stage.scene.clicks
  | _ => []

/-- The log of calls. -/
def moments (r : Run) : List Call → List Moment
  | [] => []
  | c :: cs =>
    r.momentsOf c ++
      match r.call c with
      | .ok (_, r) => r.moments cs
      | .error _ => []

theorem moments_cons {r r₁ : Run} {c : Call} {a : Answer} (h : r.call c = .ok (a, r₁))
    (cs : List Call) : r.moments (c :: cs) = r.momentsOf c ++ r₁.moments cs := by
  simp only [moments, h]

theorem moments_append : ∀ (cs : List Call) {cs' : List Call} {r r₁ : Run} {as : List Answer},
    r.calls cs = .ok (as, r₁) → r.moments (cs ++ cs') = r.moments cs ++ r₁.moments cs'
  | [], cs', r, r₁, _, h => by
    obtain ⟨-, rfl⟩ := Prod.mk.inj (Except.ok.inj h)
    rfl
  | c :: cs, cs', r, r₁, _, h => by
    obtain ⟨a, r₂, as₁, hc, hcs, -⟩ := exists_of_calls_cons h
    rw [List.cons_append, moments_cons hc, moments_cons hc, moments_append cs hcs,
      List.append_assoc]

/-! ## 5. The lists follow the log -/

/-- A run that is running, with its three lists as the log says; `setup` are the strokes of the
setup. -/
structure Kept (setup : List Paint) (log : List Moment) (r : Run) : Prop where
  running : r.phase = .running
  inSetup : r.stage.scene.inSetup = false
  backdrop : r.stage.scene.backdrop = setup
  overlay : r.stage.scene.overlay = Moment.recent 0 log
  carried : r.stage.scene.carried ++ r.stage.scene.overlay = Moment.recent 1 log

variable {r r₀ r' : Run} {setup : List Paint} {log : List Moment} {c : Call} {cs : List Call}
  {a : Answer} {as : List Answer}

/-- Behind the setup the backdrop holds its strokes, and the log is empty. -/
theorem kept_of_setup (h : r.setup = .ok r₀) :
    Kept (r.begun.stage.strokes r.script.setup) [] r₀ := by
  obtain ⟨r₁, hrun, rfl⟩ := exists_of_setup h
  obtain ⟨stage, hstage, rfl⟩ := exists_of_carryOut hrun
  have hinked := Stage.inked_of_runAll _ hstage
  have hoverlay : stage.scene.overlay = [] := hinked.overlay
  have hcarried : stage.scene.carried = [] := hinked.carried
  refine ⟨rfl, rfl, hinked.backdrop, hoverlay, ?_⟩
  have : stage.scene.carried ++ stage.scene.overlay = [] := by rw [hcarried, hoverlay]; rfl
  exact this

namespace Kept

/-- Statements behind the setup put their strokes on the log. -/
theorem carryOut (h : Kept setup log r) {sts : List Statement} (hrun : r.carryOut sts = .ok r') :
    Kept setup (log ++ r.inks sts) r' := by
  obtain ⟨stage, hstage, rfl⟩ := exists_of_carryOut hrun
  obtain ⟨hsetup, hcarried, hbackdrop, hoverlay⟩ := Stage.inked_of_runAll _ hstage
  simp only [h.inSetup, Bool.false_eq_true, if_false, List.append_nil] at hbackdrop hoverlay
  refine ⟨h.running, hsetup.trans h.inSetup, hbackdrop.trans h.backdrop, ?_, ?_⟩
  · rw [inks, Moment.recent_append_strokes, ← h.overlay]
    exact hoverlay
  · rw [inks, Moment.recent_append_strokes, ← h.carried, hoverlay, hcarried, List.append_assoc]

/-- The step of the clock: the overlay is carried. -/
theorem step (h : Kept setup log r) (ts : Timers) :
    Kept setup (log ++ [.step]) (r.aged.withTimers ts) := by
  refine ⟨h.running, h.inSetup, h.backdrop, ?_, ?_⟩
  · rw [Moment.recent_zero_concat_step]
    rfl
  · rw [Moment.recent_succ_concat_step, ← h.overlay]
    exact List.append_nil _

theorem update (h : Kept setup log r) (hu : r.update = .ok r') :
    Kept setup (log ++ r.momentsOf .update) r' := by
  rcases cases_of_update hu with ⟨-, hrun⟩ | ⟨hrest, -⟩
  · exact h.carryOut hrun
  · exact absurd h.running hrest

theorem advance (h : Kept setup log r) {dt : Duration} (ha : r.advance dt = .ok r') :
    Kept setup (log ++ r.momentsOf (.advance dt)) r' := by
  rcases cases_of_advance ha with ⟨-, fired, ts, hts, hrun⟩ | ⟨hrest, -⟩
  · have hkept := (h.step ts).carryOut hrun
    simp only [momentsOf, hts]
    rwa [List.append_cons]
  · exact absurd h.running hrest

theorem draw (h : Kept setup log r) (ready : Ready) :
    Kept setup (log ++ [.drawing]) (r.draw ready).2 := by
  have hrunning : r.isRunning = true := r.isRunning_iff.mpr h.running
  rw [Run.draw, if_pos hrunning]
  refine ⟨h.running, h.inSetup, h.backdrop, ?_, ?_⟩
  · rw [Moment.recent_concat_drawing]
    rfl
  · rw [Moment.recent_concat_drawing]
    rfl

theorem input (h : Kept setup log r) {i : Input} (hi : r.dispatch i = .ok r') :
    Kept setup (log ++ r.momentsOf (.input i)) r' := by
  cases i with
  | keyDown key =>
    obtain rfl := Except.ok.inj hi
    simp only [momentsOf, List.append_nil]
    exact ⟨h.running, h.inSetup, h.backdrop, h.overlay, h.carried⟩
  | keyUp key =>
    obtain rfl := Except.ok.inj hi
    simp only [momentsOf, List.append_nil]
    exact ⟨h.running, h.inSetup, h.backdrop, h.overlay, h.carried⟩
  | click x y =>
    rcases cases_of_click hi with ⟨-, hrun⟩ | ⟨hrest, -⟩
    · have hpointed : Kept setup log (r.pointed x y) :=
        ⟨h.running, h.inSetup, h.backdrop, h.overlay, h.carried⟩
      exact hpointed.carryOut hrun
    · exact absurd h.running hrest

/-- **Every call that plays keeps the lists in step with the log.** -/
theorem call (h : Kept setup log r) (hplays : c.plays = true) (hc : r.call c = .ok (a, r')) :
    Kept setup (log ++ r.momentsOf c) r' := by
  cases called_of_call hc with
  | update hu => exact h.update hu
  | advance ha => exact h.advance ha
  | draw ready => exact h.draw ready
  | input hi => exact h.input hi
  | setAssets _ | takeDiagnostics | takeSounds =>
    simp only [momentsOf, List.append_nil]
    exact ⟨h.running, h.inSetup, h.backdrop, h.overlay, h.carried⟩
  | setup _ | frame _ _ _ | preview _ _ | stop | load _ => simp [Call.plays] at hplays

theorem calls : ∀ (cs : List Call) {log : List Moment} {r r' : Run} {as : List Answer},
    Kept setup log r → (∀ c ∈ cs, c.plays = true) → r.calls cs = .ok (as, r') →
    Kept setup (log ++ r.moments cs) r'
  | [], log, r, r', _, h, _, hcs => by
    obtain ⟨-, rfl⟩ := Prod.mk.inj (Except.ok.inj hcs)
    rwa [moments, List.append_nil]
  | c :: cs, log, r, r', _, h, hplays, hcs => by
    obtain ⟨a, r₁, as₁, hc, hrest, -⟩ := exists_of_calls_cons hcs
    have hfirst := h.call (hplays c List.mem_cons_self) hc
    rw [moments_cons hc, ← List.append_assoc]
    exact calls cs hfirst (fun c' hc' => hplays c' (List.mem_cons_of_mem _ hc')) hrest

/-- What a drawing paints, read off the log. -/
theorem draw_fst (h : Kept setup log r) (ready : Ready) :
    (r.draw ready).1 = (r.stage.scene.background.map Paint.background).toList ++ setup ++
      Moment.recent 1 log ++ r.stage.scene.entities.paint ready := by
  have hrunning : r.isRunning = true := r.isRunning_iff.mpr h.running
  rw [Run.draw, if_pos hrunning, ← h.carried, ← h.backdrop]
  simp only [Scene.painted, List.append_assoc]

end Kept

/-! ## 6. The drawings of a run -/

/-- **A drawing paints the setup and what is recent.**  Take any run behind its setup and any
calls that play it.  Every drawing among them paints the background if there is one, all strokes
of the setup, and of the log before it just those strokes behind which nothing has been painted
and at most one step has begun, in their order; then the entities.  So no two drawings paint the
same stroke of the log, none paints it when two further steps have begun, and a drawing before
that paints it unless an earlier one has. -/
theorem drawings_paint_recent_strokes (hsetup : r.setup = .ok r₀)
    (hplays : ∀ c ∈ cs, c.plays = true) (h : r₀.calls cs = .ok (as, r')) :
    (∀ before ready after, cs = before ++ .draw ready :: after →
      ∃ r₁ place, r₀.calls before = .ok (as.take before.length, r₁) ∧
        (r₀.moments cs)[place]? = some .drawing ∧
        (r₀.moments cs).take place = r₀.moments before ∧
        as[before.length]? = some (.painted
          ((r₁.stage.scene.background.map Paint.background).toList ++
            r.begun.stage.strokes r.script.setup ++
            Moment.recent 1 ((r₀.moments cs).take place) ++
            r₁.stage.scene.entities.paint ready))) ∧
    ∀ i p, (r₀.moments cs)[i]? = some (.stroke p) →
      (∀ j j', Moment.Reaches (r₀.moments cs) i j → Moment.Reaches (r₀.moments cs) i j' →
        j = j') ∧
      (∀ j, 2 ≤ (((r₀.moments cs).take j).drop (i + 1)).countP Moment.isStep →
        ¬ Moment.Reaches (r₀.moments cs) i j) ∧
      ∀ j, i < j → (r₀.moments cs)[j]? = some .drawing →
        (((r₀.moments cs).take j).drop (i + 1)).countP Moment.isStep ≤ 1 →
        ∃ k ≤ j, Moment.Reaches (r₀.moments cs) i k := by
  refine ⟨?_, fun i p hstroke => ⟨fun j j' => Moment.Reaches.unique,
    fun j => Moment.not_reaches_of_steps,
    fun j hlt hdrawing => Moment.exists_reaches hstroke hdrawing hlt⟩⟩
  rintro before ready after rfl
  obtain ⟨as₁, r₁, as₂, hbefore, hrest, rfl, hlength⟩ := exists_of_calls_append before h
  have hlog : r₀.moments (before ++ .draw ready :: after)
      = r₀.moments before ++ .drawing :: (r₁.draw ready).2.moments after := by
    rw [moments_append before hbefore]
    rfl
  have hkept := (kept_of_setup hsetup).calls before
    (fun c hc => hplays c (List.mem_append_left _ hc)) hbefore
  rw [List.nil_append] at hkept
  refine ⟨r₁, (r₀.moments before).length, ?_, ?_, ?_, ?_⟩
  · rw [← hlength, List.take_left]
    exact hbefore
  · simp [hlog]
  · simp [hlog]
  · obtain ⟨a, r₂, as₃, hdraw, -, rfl⟩ := exists_of_calls_cons hrest
    cases called_of_call hdraw
    rw [hlog, List.take_left, ← hlength, ← hkept.draw_fst ready]
    simp

/-- A script that draws in its setup, on a click and on a timer. -/
def inkScript : Script :=
  let circle (x : Float) : Action := .drawCircle ⟨.number x, .number x⟩ (.number 1.0)
  ⟨[⟨1, .act (circle 1.0)⟩, ⟨2, .on .click (.act (circle 2.0))⟩,
    ⟨3, .on (.every 1.0) (.act (circle 3.0))⟩], []⟩

/-- A click before the first drawing, and one that two steps push out before the last. -/
def inkCalls : List Call :=
  [.advance (.ofMillis 1000), .input (.click 1.0 1.0), .draw .always, .draw .always,
    .input (.click 1.0 1.0), .advance (.ofMillis 1000), .advance (.ofMillis 1000), .draw .always]

/-- The number of strokes of an answer that paints. -/
def Answer.painted? : Answer → Option Nat
  | .painted ps => some ps.length
  | _ => none

theorem drawings_paint_recent_strokes_inkScript :
    ∃ r₀ as r', (Run.new inkScript (.seeded 0)).setup = .ok r₀ ∧
      r₀.calls inkCalls = .ok (as, r') ∧ as.filterMap Answer.painted? = [3, 1, 3] ∧
      ((r₀.moments inkCalls).countP Moment.isStep, (r₀.moments inkCalls).length) = (3, 11) ∧
      ∃ (r₁ : Run) (place : Nat), (r₀.moments inkCalls)[place]? = some .drawing ∧
        as[7]? = some (.painted ((r₁.stage.scene.background.map Paint.background).toList ++
          (Run.new inkScript (.seeded 0)).begun.stage.strokes inkScript.setup ++
          Moment.recent 1 ((r₀.moments inkCalls).take place) ++
          r₁.stage.scene.entities.paint .always)) := by
  have hrun : (match (Run.new inkScript (.seeded 0)).setup with
      | .error _ => false
      | .ok r₀ => match r₀.calls inkCalls with
        | .error _ => false
        | .ok (as, _) => as.filterMap Answer.painted? == [3, 1, 3] &&
          ((r₀.moments inkCalls).countP Moment.isStep, (r₀.moments inkCalls).length)
            == (3, 11)) = true := by decide +kernel
  split at hrun
  · simp at hrun
  · rename_i r₀ hsetup
    split at hrun
    · simp at hrun
    · rename_i as r' hcalls
      simp only [Bool.and_eq_true, beq_iff_eq] at hrun
      obtain ⟨hpainted, hlog⟩ := hrun
      obtain ⟨hdrawings, -⟩ := drawings_paint_recent_strokes hsetup
        (by decide : ∀ c ∈ inkCalls, c.plays = true) hcalls
      obtain ⟨r₁, place, -, hdrawing, -, hlast⟩ :=
        hdrawings (inkCalls.take 7) .always [] rfl
      exact ⟨r₀, as, r', hsetup, hcalls, hpainted, hlog, r₁, place, hdrawing, hlast⟩

end Run
end StageScript

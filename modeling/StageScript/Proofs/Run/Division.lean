/-
# Short frames and long ones

A host moves the clock by as much as has gone by since its last frame, so how a stretch of time is
divided into steps is an accident.  This module proves that it does not matter: two steps, one
after the other, leave a run as one step over their sum leaves it (`advance_divided`).

There are two reasons why it might matter, and each has its answer.

* The ticks of a step are collected before the first of them is carried out.  The timers know of
  no such division (`Timers.advance_parts`), and what the ticks of the first step carry out
  reaches the timers only where a timer's own command sets a further one.  This is excluded here:
  a timer that is set during the first step ticks in the second, and in the single step it does
  not.
* Each step makes the strokes that wait one step older.  Strokes of the first step are carried
  behind two steps and in the overlay behind one.  A drawing paints both lists one behind the
  other, so it cannot tell; but strokes that waited in the overlay before are dropped by the
  second step, and the single step still carries them.
-/
import StageScript.Proofs.Run.Rest
import StageScript.Proofs.Run.Timetable
import StageScript.Proofs.Stage.Timerless
import StageScript.Proofs.Timers.Division

namespace StageScript
namespace Run

variable {r : Run} {ts : Timers} {d d₁ d₂ : Duration} {fired : List Statement}

/-! ## 1. One step -/

/-- The run without the strokes that wait to be painted once. -/
def withoutStrokes (r : Run) : Run := r.withScene r.stage.scene.drawn

/-- The stage when the ticks of a step are about to be carried out. -/
def moved (s : Stage) (ts : Timers) : Stage := s.withScene (s.scene.ageOverlay.withTimers ts)

theorem exists_advance_error (hrun : r.isRunning = true)
    (h : (r.stage.scene.timers.advance d).toOption = none) : ∃ o, r.advance d = .error o := by
  unfold advance
  rw [if_pos hrun]
  cases hts : r.stage.scene.timers.advance d with
  | error left => exact ⟨_, rfl⟩
  | ok x => simp [hts, Except.toOption] at h

theorem advance_of_ok (hrun : r.isRunning = true)
    (h : r.stage.scene.timers.advance d = .ok (fired, ts)) :
    r.advance d = (Stage.runAll fired (moved r.stage ts)).map fun stage =>
      { r with stage := stage } := by
  unfold advance
  rw [if_pos hrun, h]
  rfl

/-! ## 2. Two steps on the stage -/

/-- The stage behind the ticks of a second step: the strokes of the first one are carried. -/
theorem moved_eq_atop (s : Stage) (ts : Timers) :
    moved s ts = (s.withScene s.scene.drawn).atop ts s.scene.overlay [] := rfl

/-- A stage is the one without strokes, with its own strokes put back. -/
theorem atop_eq_atop_drawn (s : Stage) (ts : Timers) (carried : List Paint) :
    s.atop ts carried [] = (s.withScene s.scene.drawn).atop ts carried s.scene.overlay := by
  have hoverlay : s.scene.overlay = s.scene.overlay ++ [] := (List.append_nil _).symm
  exact congrArg (fun ps => (s.withScene { s.scene with
    timers := ts, carried := carried, overlay := ps } : Stage)) hoverlay

/-- **The statements of two steps, carried out in two steps and in one.**  Both leave the same
stage `z`, but for the strokes: those of the first step, `inked`, are carried behind two steps,
and lie behind what waited before in one. -/
theorem exists_runAll_divided {first second : List Statement}
    (hfirst : ∀ st ∈ first, st.command.hasTimer = false)
    (hsecond : ∀ st ∈ second, st.command.hasTimer = false) {s s₁ : Stage} {ts₁ : Timers}
    (hrun : Stage.runAll first (moved s ts₁) = .ok s₁) (ts₂ : Timers) :
    ∃ (z : Stage) (inked : List Paint),
      Stage.runAll second (moved s₁ ts₂) = .ok (z.atop ts₂ inked []) ∧
      Stage.runAll (first ++ second) (moved s ts₂) = .ok (z.atop ts₂ s.scene.overlay inked) := by
  obtain ⟨s', hrun', -, hatop₁⟩ := Stage.exists_runAll_atop hfirst (moved s ts₁)
  obtain rfl : s₁ = s' := Except.ok.inj (hrun.symm.trans hrun')
  obtain ⟨z, -, -, hatop₂⟩ := Stage.exists_runAll_atop hsecond (s₁.withScene s₁.scene.drawn)
  refine ⟨z, s₁.scene.overlay, ?_, ?_⟩
  · rw [moved_eq_atop]
    exact hatop₂ ts₂ s₁.scene.overlay []
  · have hmoved : moved s ts₂ = (moved s ts₁).atop ts₂ s.scene.overlay [] := rfl
    have hrest := hatop₂ ts₂ s.scene.overlay s₁.scene.overlay
    rw [← atop_eq_atop_drawn] at hrest
    rw [Stage.runAll_append, hmoved, hatop₁]
    exact hrest

/-! ## 3. Two steps of a run -/

/-- The two runs differ in nothing but the strokes that wait, and in nothing at all that a drawing
paints if no strokes waited before. -/
def SameFrame (waited : List Paint) (r₂ r' : Run) : Prop :=
  r₂.withoutStrokes = r'.withoutStrokes ∧ (waited = [] → ∀ ready, r₂.draw ready = r'.draw ready)

/-- Where the strokes of the first step lie makes no difference to a drawing. -/
theorem sameFrame_atop (hrun : r.isRunning = true) (z : Stage) (ts : Timers)
    (inked waited : List Paint) :
    SameFrame waited { r with stage := z.atop ts inked [] }
      { r with stage := z.atop ts waited inked } := by
  refine ⟨rfl, ?_⟩
  rintro rfl ready
  have hrun₂ : Run.isRunning { r with stage := z.atop ts inked [] } = true := hrun
  have hrun' : Run.isRunning { r with stage := z.atop ts [] inked } = true := hrun
  have hpainted : (z.atop ts inked []).scene.painted ready
      = (z.atop ts [] inked).scene.painted ready := by
    simp [Stage.atop, Stage.withScene, Scene.atop, Scene.painted]
  rw [draw, draw, if_pos hrun₂, if_pos hrun', hpainted]
  rfl

/-- A first step that sets no timer has a result if its timers have one, and leaves these. -/
theorem exists_first_step (hrun : r.isRunning = true)
    (htimers : ∀ t ∈ r.stage.scene.timers.timers, t.statement.command.hasTimer = false)
    (hfirst : r.stage.scene.timers.advance d₁ = .ok (fired, ts)) :
    (∀ st ∈ fired, st.command.hasTimer = false) ∧
      ∃ s₁, Stage.runAll fired (moved r.stage ts) = .ok s₁ ∧ s₁.scene.timers = ts ∧
        r.advance d₁ = .ok { r with stage := s₁ } := by
  obtain ⟨hfired, -⟩ := Timers.drawnFrom_of_advance hfirst
  have hfirsts : ∀ st ∈ fired, st.command.hasTimer = false := by
    intro st hst
    obtain ⟨t, ht, rfl⟩ := hfired st hst
    exact htimers t ht
  obtain ⟨s₁, hs₁, hts, -⟩ := Stage.exists_runAll_atop hfirsts (moved r.stage ts)
  refine ⟨hfirsts, s₁, hs₁, hts, ?_⟩
  rw [advance_of_ok hrun hfirst, hs₁]
  rfl

/-- A first step that has a result, and a second one behind it. -/
theorem advance_divided_of_ok (hrun : r.isRunning = true)
    (hp : Timers.Proper r.stage.scene.timers.timers)
    (htimers : ∀ t ∈ r.stage.scene.timers.timers, t.statement.command.hasTimer = false)
    (hd : d.nanos = d₁.nanos + d₂.nanos)
    (hfirst : r.stage.scene.timers.advance d₁ = .ok (fired, ts)) :
    Matched (SameFrame r.stage.scene.overlay)
      ((r.advance d₁).bind fun r₁ => r₁.advance d₂) (r.advance d) := by
  have hwhole := Timers.advance_parts hd hp
  rw [hfirst] at hwhole
  simp only [Except.toOption, Option.bind_some] at hwhole
  obtain ⟨-, hkept⟩ := Timers.drawnFrom_of_advance hfirst
  obtain ⟨hfirsts, s₁, hs₁, hts, hadvance⟩ := exists_first_step hrun htimers hfirst
  have hrun₁ : Run.isRunning { r with stage := s₁ } = true := hrun
  have hbind : ((r.advance d₁).bind fun r₁ => r₁.advance d₂)
      = Run.advance { r with stage := s₁ } d₂ := by
    rw [hadvance]
    rfl
  rw [hbind]
  cases hsecond : ts.advance d₂ with
  | error left =>
    simp only [hsecond, Option.map_none] at hwhole
    obtain ⟨o, ho⟩ := exists_advance_error hrun hwhole
    have hsecond' : (s₁.scene.timers.advance d₂).toOption = none := by
      rw [hts, hsecond]
      rfl
    obtain ⟨o₁, ho₁⟩ := exists_advance_error hrun₁ hsecond'
    rw [ho, ho₁]
    exact .overflow o₁ o
  | ok y =>
    obtain ⟨fired₂, ts₂⟩ := y
    simp only [hsecond, Option.map_some] at hwhole
    obtain ⟨hfired₂, -⟩ := Timers.drawnFrom_of_advance hsecond
    have hseconds : ∀ st ∈ fired₂, st.command.hasTimer = false := by
      intro st hst
      obtain ⟨t₁, ht₁, rfl⟩ := hfired₂ st hst
      obtain ⟨t, ht, -, hst⟩ := hkept t₁ ht₁
      rw [← hst]
      exact htimers t ht
    obtain ⟨z, inked, hz, hboth⟩ := exists_runAll_divided hfirsts hseconds hs₁ ts₂
    rw [← hts] at hsecond
    rw [advance_of_ok hrun₁ hsecond, advance_of_ok hrun (eq_ok_of_toOption hwhole), hz, hboth]
    exact .result (sameFrame_atop hrun z ts₂ inked _)

/-- **Two steps are one**, for timers of which only this is known: their periods are positive,
their numbers differ, and none of them sets a further one. -/
theorem advance_divided_of_proper (hp : Timers.Proper r.stage.scene.timers.timers)
    (htimers : ∀ t ∈ r.stage.scene.timers.timers, t.statement.command.hasTimer = false)
    (hd : d.nanos = d₁.nanos + d₂.nanos) :
    Matched (SameFrame r.stage.scene.overlay)
      ((r.advance d₁).bind fun r₁ => r₁.advance d₂) (r.advance d) := by
  cases hrun : r.isRunning with
  | false =>
    have hphase : r.phase ≠ .running := fun h => by simp [r.isRunning_iff.mpr h] at hrun
    rw [advance_of_not_running hphase, advance_of_not_running hphase]
    simp only [Except.bind, advance_of_not_running hphase]
    exact .result ⟨rfl, fun _ _ => rfl⟩
  | true =>
    cases hfirst : r.stage.scene.timers.advance d₁ with
    | error left =>
      -- the first step goes too far, and so does the whole
      have hfirst' : (r.stage.scene.timers.advance d₁).toOption = none := by
        rw [hfirst]
        rfl
      have hwhole := Timers.advance_parts hd hp
      rw [hfirst', Option.bind_none] at hwhole
      obtain ⟨o₁, ho₁⟩ := exists_advance_error hrun hfirst'
      obtain ⟨o, ho⟩ := exists_advance_error hrun hwhole
      rw [ho₁, ho]
      exact .overflow o₁ o
    | ok x =>
      obtain ⟨fired, ts⟩ := x
      exact advance_divided_of_ok hrun hp htimers hd hfirst

/-- Two steps whose sum is no duration have no result. -/
theorem exists_two_steps_error (hrun : r.isRunning = true)
    (htimers : ∀ t ∈ r.stage.scene.timers.timers, t.statement.command.hasTimer = false)
    (hd : d₁.add? d₂ = none) : ∃ o, ((r.advance d₁).bind fun r₁ => r₁.advance d₂) = .error o := by
  cases hfirst : r.stage.scene.timers.advance d₁ with
  | error left =>
    have hfirst' : (r.stage.scene.timers.advance d₁).toOption = none := by
      rw [hfirst]
      rfl
    obtain ⟨o, ho⟩ := exists_advance_error hrun hfirst'
    exact ⟨o, by rw [ho]; rfl⟩
  | ok x =>
    obtain ⟨fired, ts⟩ := x
    obtain ⟨-, s₁, -, hts, hadvance⟩ := exists_first_step hrun htimers hfirst
    obtain ⟨ticks, htick, -⟩ := Timers.exists_tick_of_advance hfirst
    obtain ⟨target, timers, hadd, -, rfl⟩ := Timers.exists_fire_of_tick htick
    -- the clock is at least as far as the first step, so the second one finds no room
    have hsum : s₁.scene.timers.clock.add? d₂ = none := by
      have hclock := Duration.add?_eq_some_iff.mp hadd
      have hlong := Duration.add?_eq_none_iff.mp hd
      rw [hts, Duration.add?_eq_none_iff]
      simp only
      omega
    have hsecond : (s₁.scene.timers.advance d₂).toOption = none := by
      simp only [Timers.advance, Timers.tick, hsum]
      rfl
    have hrun₁ : Run.isRunning { r with stage := s₁ } = true := hrun
    obtain ⟨o, ho⟩ := exists_advance_error hrun₁ hsecond
    exact ⟨o, by rw [hadvance]; exact ho⟩

/-! ## 4. Frames of every run -/

/-- **How time is divided does not matter.**  Take a run in any state that it reaches in which no
timer's command contains a timer.  Two steps of the clock, one after the other, have a result
exactly if the single step over their sum has one.  Then both leave the same run but for the
strokes that wait to be painted once: the same entities, variables, timers and clock, listeners,
keys, colors, background, generator, sounds and diagnostics.  If no stroke waited in the overlay
before, as behind a drawing, the next drawing paints the same strokes and leaves the same run.
What was carried before is dropped either way.  If the sum is no duration, two steps of a run that
is running have no result either. -/
theorem advance_divided {script : Script} {config : RunConfig} {cs : List Call}
    {as : List Answer} (h : (Run.new script config).calls cs = .ok (as, r))
    (htimers : ∀ t ∈ r.stage.scene.timers.timers, t.statement.command.hasTimer = false)
    (d₁ d₂ : Duration) :
    (∀ d, d₁.add? d₂ = some d →
      Matched (fun r₂ r' => r₂.withoutStrokes = r'.withoutStrokes ∧
          (r.stage.scene.overlay = [] → ∀ ready, r₂.draw ready = r'.draw ready))
        ((r.advance d₁).bind fun r₁ => r₁.advance d₂) (r.advance d)) ∧
      (d₁.add? d₂ = none → r.isRunning = true →
        ∃ o, ((r.advance d₁).bind fun r₁ => r₁.advance d₂) = .error o) := by
  constructor
  · intro d hd
    exact advance_divided_of_proper (regular_of_calls h).proper htimers
      (Duration.add?_eq_some_iff.mp hd)
  · exact fun hd hrun => exists_two_steps_error hrun htimers hd

/-- A script with two timers of different periods, one of which draws. -/
def pulsingScript : Script :=
  ⟨[⟨1, .act (.declare "n" (.number (.number 0.0)))⟩,
    ⟨2, .on (.every 0.3) (.act (.drawCircle ⟨.var "n", .number 1.0⟩ (.number 1.0)))⟩,
    ⟨3, .on (.every 0.5) (.act (.add "n" 1.0))⟩], []⟩

/-- Five circles, drawn in steps of 0.7 and 0.8 seconds and in one step. -/
theorem advance_divided_pulsingScript :
    ∃ as r r₂ r',
      (Run.new pulsingScript (.seeded 0)).calls [.setup, .draw .always] = .ok (as, r) ∧
        (∀ t ∈ r.stage.scene.timers.timers, t.statement.command.hasTimer = false) ∧
        r.stage.scene.overlay = [] ∧
        ((r.advance (.ofMillis 700)).bind fun r₁ => r₁.advance (.ofMillis 800)) = .ok r₂ ∧
        r.advance (.ofMillis 1500) = .ok r' ∧ (r₂.draw .always).1.length = 5 ∧
        r₂.withoutStrokes = r'.withoutStrokes ∧ ∀ ready, r₂.draw ready = r'.draw ready := by
  have hrun : (Run.new pulsingScript (.seeded 0)).endsIn [.setup, .draw .always]
      (fun r => r.stage.scene.timers.timers.all (!·.statement.command.hasTimer) &&
        r.stage.scene.overlay.isEmpty &&
        passes ((r.advance (.ofMillis 700)).bind fun r₁ => r₁.advance (.ofMillis 800))
          fun r₂ => (r₂.draw .always).1.length == 5) = true := by decide +kernel
  obtain ⟨as, r, hcalls, htest⟩ := exists_of_endsIn hrun
  simp only [Bool.and_eq_true, List.all_eq_true, Bool.not_eq_true', List.isEmpty_iff] at htest
  obtain ⟨⟨htimers, hoverlay⟩, hsplit⟩ := htest
  obtain ⟨r₂, hr₂, hlength⟩ := exists_of_passes hsplit
  have hsum : (Duration.ofMillis 700).add? (.ofMillis 800) = some (.ofMillis 1500) :=
    Duration.add?_eq_some_iff.mpr rfl
  have hdivided := (advance_divided hcalls htimers (.ofMillis 700) (.ofMillis 800)).1 _ hsum
  rw [hr₂] at hdivided
  obtain ⟨r', hr', hsame, hdraw⟩ := hdivided.exists_of_ok
  exact ⟨as, r, r₂, r', hcalls, htimers, hoverlay, hr₂, hr', by simpa using hlength, hsame,
    hdraw hoverlay⟩

end Run
end StageScript

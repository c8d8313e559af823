/-
# A run that is not running rests

A run that is ready or stopped holds nothing of what was carried out: no entity and no variable,
no timer, no listener, no stroke, no sound (`Scene.AtRest`).  A run comes to rest by stopping,
loading or a preview, which all empty the scene, and there is no other way out of `running`; so
it is enough to look at one call (`Ended.of_called`).

At rest the calls of a frame and clicks hand back the very run they were given.  What a history
without a setup and without a preview can do is to move the keys, to change the assets, the
script and the phase, and to hand over diagnostics that waited before it (`quiet_of_calls`).
-/
import StageScript.Proofs.Run.Calls

namespace StageScript

/-! ## 1. A scene at rest -/

/-- Nothing is left of what was carried out, and the active color is that of the settings. -/
structure Scene.AtRest (config : RunConfig) (s : Scene) : Prop where
  settings : s.config = config
  entities : s.entities = .empty
  vars : s.vars = .empty
  timers : s.timers.timers = []
  clock : s.timers.clock = .zero
  clicks : s.clicks = []
  background : s.background = none
  backdrop : s.backdrop = []
  overlay : s.overlay = []
  carried : s.carried = []
  sounds : s.sounds = []
  activeColor : s.activeColor = .resolve config.defaultColor

theorem Scene.initial_atRest (config : RunConfig) (g : Generator) :
    (Scene.initial config g).AtRest config :=
  ⟨rfl, rfl, rfl, rfl, rfl, rfl, rfl, rfl, rfl, rfl, rfl, rfl⟩

/-- An emptied scene is at rest. -/
theorem Scene.reset_atRest {config : RunConfig} {s : Scene} (h : s.config = config)
    (g : Generator) : (s.reset g).AtRest config := by
  subst h
  exact ⟨rfl, rfl, rfl, rfl, rfl, rfl, rfl, rfl, rfl, rfl, rfl, rfl⟩

theorem Scene.reset_reset (s : Scene) (g g' : Generator) : (s.reset g).reset g' = s.reset g' := rfl

namespace Run

variable {r r' : Run} {config : RunConfig}

/-! ## 2. Only stopping leads out of a run -/

/-- The run has the settings it was made with, and it rests unless it is running. -/
structure Ended (config : RunConfig) (r : Run) : Prop where
  settings : r.stage.scene.config = config
  atRest : r.phase ≠ .running → r.stage.scene.AtRest config

theorem phase_of_carryOut {sts : List Statement} (h : r.carryOut sts = .ok r') :
    r'.phase = r.phase := by
  obtain ⟨stage, -, rfl⟩ := exists_of_carryOut h
  rfl

/-- A run that goes on running need not rest. -/
theorem Ended.of_carryOut {sts : List Statement} (h : r.stage.scene.config = config)
    (hphase : r.phase = .running) (hrun : r.carryOut sts = .ok r') : Ended config r' :=
  ⟨(Scene.stable_config config).of_carryOut hrun h,
    fun hne => absurd ((phase_of_carryOut hrun).trans hphase) hne⟩

theorem Ended.of_setup (h : Ended config r) (hrun : r.setup = .ok r') : Ended config r' := by
  obtain ⟨r₁, hcarry, rfl⟩ := exists_of_setup hrun
  have hbegun : r.begun.stage.scene.config = config := h.settings
  have h₁ := Ended.of_carryOut hbegun rfl hcarry
  exact ⟨h₁.settings, fun hne => absurd (phase_of_carryOut hcarry) hne⟩

theorem Ended.of_update (h : Ended config r) (hrun : r.update = .ok r') : Ended config r' := by
  rcases cases_of_update hrun with ⟨hphase, hcarry⟩ | ⟨-, rfl⟩
  · exact .of_carryOut h.settings hphase hcarry
  · exact h

theorem Ended.of_advance (h : Ended config r) {dt : Duration} (hrun : r.advance dt = .ok r') :
    Ended config r' := by
  rcases cases_of_advance hrun with ⟨hphase, fired, ts, -, hcarry⟩ | ⟨-, rfl⟩
  · have hmoved : (r.aged.withTimers ts).stage.scene.config = config := h.settings
    exact .of_carryOut hmoved hphase hcarry
  · exact h

theorem Ended.of_draw (h : Ended config r) (ready : Ready) : Ended config (r.draw ready).2 := by
  unfold draw
  split
  · rename_i hrun
    exact ⟨h.settings, fun hne => absurd (r.isRunning_iff.mp hrun) hne⟩
  · exact h

theorem Ended.of_stop (h : Ended config r) : Ended config r.stop := by
  have hrest : r.stop.stage.scene.AtRest config := by
    rw [r.stop_scene]
    exact Scene.reset_atRest h.settings _
  exact ⟨hrest.settings, fun _ => hrest⟩

theorem Ended.of_keys (h : Ended config r) (keys : Keys) :
    Ended config (r.withScene { r.stage.scene with keys := keys }) :=
  ⟨h.settings, fun hne => { h.atRest hne with }⟩

theorem Ended.of_dispatch (h : Ended config r) {i : Input} (hrun : r.dispatch i = .ok r') :
    Ended config r' := by
  cases i with
  | keyDown key =>
    obtain rfl := Except.ok.inj hrun
    exact h.of_keys _
  | keyUp key =>
    obtain rfl := Except.ok.inj hrun
    exact h.of_keys _
  | click x y =>
    rcases cases_of_click hrun with ⟨hphase, hcarry⟩ | ⟨-, rfl⟩
    · have hpointed : (r.pointed x y).stage.scene.config = config := h.settings
      exact .of_carryOut hpointed hphase hcarry
    · exact h

/-- **A call that leaves a run not running leaves it at rest.** -/
theorem Ended.of_called {c : Call} {a : Answer} (hc : Called r c a r') (h : Ended config r) :
    Ended config r' := by
  cases hc with
  | setup hrun => exact h.of_setup hrun
  | update hrun => exact h.of_update hrun
  | advance hrun => exact h.of_advance hrun
  | draw ready => exact h.of_draw ready
  | frame ready ha hu => exact ((h.of_advance ha).of_update hu).of_draw ready
  | preview ready hrun => exact ((h.of_setup hrun).of_draw ready).of_stop
  | stop => exact h.of_stop
  | load script => exact ⟨h.of_stop.settings, h.of_stop.atRest⟩
  | setAssets assets => exact ⟨h.settings, fun hne => { h.atRest hne with }⟩
  | input hrun => exact h.of_dispatch hrun
  | takeDiagnostics => exact ⟨h.settings, h.atRest⟩
  | takeSounds => exact ⟨h.settings, fun hne => { h.atRest hne with sounds := rfl }⟩

/-- **Whatever happened to a run, it rests unless it is running.** -/
theorem ended_of_calls {script : Script} {cs : List Call} {as : List Answer}
    (h : (Run.new script config).calls cs = .ok (as, r)) : Ended config r :=
  of_calls (P := Ended config) Ended.of_called cs h
    ⟨rfl, fun _ => Scene.initial_atRest config _⟩

/-! ## 3. Calls at rest -/

theorem update_of_not_running (h : r.phase ≠ .running) : r.update = .ok r :=
  if_neg (r.isRunning_iff.not.mpr h)

theorem advance_of_not_running (h : r.phase ≠ .running) (dt : Duration) :
    r.advance dt = .ok r :=
  if_neg (r.isRunning_iff.not.mpr h)

theorem draw_of_not_running (h : r.phase ≠ .running) (ready : Ready) : r.draw ready = ([], r) :=
  if_neg (r.isRunning_iff.not.mpr h)

theorem click_of_not_running (h : r.phase ≠ .running) (x y : Float) :
    r.dispatch (.click x y) = .ok r :=
  if_neg (r.isRunning_iff.not.mpr h)

theorem frame_of_not_running (h : r.phase ≠ .running) (dt : Duration) (ready : Ready) :
    r.frame dt ready = .ok ([], r) := by
  rw [frame_eq, advance_of_not_running h, Except.bind, update_of_not_running h, Except.map,
    draw_of_not_running h]

/-- A stop is over at once: the second one finds nothing to do. -/
theorem stop_stop (r : Run) : r.stop.stop = r.stop := by
  have hconfig (s : Scene) (g : Generator) : (s.reset g).config = s.config := rfl
  cases hphase : r.phase <;> simp [stop, isRunning, hphase, cleared, withScene, log, Stage.log,
    hconfig, Scene.reset_reset]

theorem stop_not_running (r : Run) : r.stop.phase ≠ .running := by
  rw [phase_stop]
  split <;> simp

/-- The call begins a run. -/
def Call.begins : Call → Bool
  | setup => true
  | preview _ => true
  | _ => false

/-- The diagnostics that an answer hands over. -/
def Answer.reported : Answer → List Diagnostic
  | diagnostics ds => ds
  | _ => []

/-- The answer holds no stroke and no sound. -/
def Answer.Silent : Answer → Prop
  | painted strokes => strokes = []
  | sounds as => as = []
  | _ => True

/-- **A call at rest that begins no run is quiet.**  It has a result and leaves the run at rest;
it paints nothing, plays nothing, and reports nothing that did not wait before it. -/
theorem quiet_of_call (h : Ended config r) (hphase : r.phase ≠ .running) {c : Call}
    (hc : c.begins = false) :
    ∃ a r', r.call c = .ok (a, r') ∧ r'.phase ≠ .running ∧ Ended config r' ∧
      a.Silent ∧ a.reported ++ r'.waiting = r.waiting := by
  cases c with
  | setup => simp [Call.begins] at hc
  | preview ready => simp [Call.begins] at hc
  | update =>
    refine ⟨.nothing, r, ?_, hphase, h, trivial, rfl⟩
    simp only [call, update_of_not_running hphase, Except.map]
  | advance dt =>
    refine ⟨.nothing, r, ?_, hphase, h, trivial, rfl⟩
    simp only [call, advance_of_not_running hphase, Except.map]
  | draw ready =>
    refine ⟨.painted [], r, ?_, hphase, h, rfl, rfl⟩
    simp only [call, draw_of_not_running hphase]
  | frame dt ready =>
    refine ⟨.painted [], r, ?_, hphase, h, rfl, rfl⟩
    simp only [call, frame_of_not_running hphase, Except.map]
  | stop => exact ⟨.nothing, r.stop, rfl, r.stop_not_running, h.of_stop, trivial, r.waiting_stop⟩
  | load script =>
    exact ⟨.nothing, r.load script, rfl, r.stop_not_running,
      ⟨h.of_stop.settings, h.of_stop.atRest⟩, trivial, r.waiting_stop⟩
  | setAssets assets =>
    exact ⟨.nothing, r.setAssets assets, rfl, hphase,
      ⟨h.settings, fun hne => { h.atRest hne with }⟩, trivial, rfl⟩
  | input i =>
    cases i with
    | keyDown key => exact ⟨.nothing, _, rfl, hphase, h.of_keys _, trivial, rfl⟩
    | keyUp key => exact ⟨.nothing, _, rfl, hphase, h.of_keys _, trivial, rfl⟩
    | click x y =>
      refine ⟨.nothing, r, ?_, hphase, h, trivial, rfl⟩
      simp only [call, click_of_not_running hphase, Except.map]
  | takeDiagnostics =>
    refine ⟨_, _, rfl, hphase, ⟨h.settings, h.atRest⟩, trivial, ?_⟩
    simp [Answer.reported, waiting]
  | takeSounds =>
    exact ⟨_, _, rfl, hphase, ⟨h.settings, fun hne => { h.atRest hne with sounds := rfl }⟩,
      (h.atRest hphase).sounds, rfl⟩

/-- **So is every history that begins no run.** -/
theorem quiet_of_calls : ∀ (cs : List Call) {r : Run}, Ended config r → r.phase ≠ .running →
    (∀ c ∈ cs, c.begins = false) →
    ∃ as r', r.calls cs = .ok (as, r') ∧ r'.phase ≠ .running ∧ Ended config r' ∧
      (∀ a ∈ as, a.Silent) ∧ as.flatMap Answer.reported ++ r'.waiting = r.waiting
  | [], r, h, hphase, _ => ⟨[], r, rfl, hphase, h, by simp, rfl⟩
  | c :: cs, r, h, hphase, hcs => by
    obtain ⟨a, r₁, hcall, hphase₁, h₁, hsilent, hreported⟩ :=
      quiet_of_call h hphase (hcs c List.mem_cons_self)
    obtain ⟨as, r₂, hcalls, hphase₂, h₂, hsilents, hreporteds⟩ :=
      quiet_of_calls cs h₁ hphase₁ fun c' hc' => hcs c' (List.mem_cons_of_mem _ hc')
    refine ⟨a :: as, r₂, ?_, hphase₂, h₂, ?_, ?_⟩
    · simp only [calls, hcall, hcalls, Except.map]
    · exact List.forall_mem_cons.mpr ⟨hsilent, hsilents⟩
    · rw [List.flatMap_cons, List.append_assoc, hreporteds, hreported]

/-! ## 4. The phases of every run -/

/-- **A run that is not running rests, and stays at rest until the next setup or preview.**
Whatever was called before, the scene is empty; each call of a frame and each click hands back
the same run, and a key moves nothing but the keys.  Histories that begin no run have a result,
leave the run at rest, paint and play nothing, and report nothing new.  A second stop does
nothing, and a run that is ready stays ready. -/
theorem rests_unless_running {script : Script} {cs : List Call} {as : List Answer}
    (h : (Run.new script config).calls cs = .ok (as, r)) :
    (r.phase ≠ .running →
      r.stage.scene.AtRest config ∧
      (∀ dt ready, r.advance dt = .ok r ∧ r.update = .ok r ∧ r.draw ready = ([], r) ∧
        r.frame dt ready = .ok ([], r)) ∧
      (∀ x y, r.dispatch (.click x y) = .ok r) ∧
      (∀ key, ∃ keys keys',
        r.dispatch (.keyDown key) = .ok (r.withScene { r.stage.scene with keys := keys }) ∧
        r.dispatch (.keyUp key) = .ok (r.withScene { r.stage.scene with keys := keys' })) ∧
      ∀ later, (∀ c ∈ later, c.begins = false) →
        ∃ answers r', r.calls later = .ok (answers, r') ∧ r'.phase ≠ .running ∧
          r'.stage.scene.AtRest config ∧ (∀ a ∈ answers, a.Silent) ∧
          answers.flatMap Answer.reported ++ r'.waiting = r.waiting) ∧
    r.stop.stop = r.stop ∧ (r.phase = .ready → r.stop.phase = .ready) := by
  have hended := ended_of_calls h
  refine ⟨fun hphase => ⟨hended.atRest hphase, ?_, ?_, ?_, ?_⟩, r.stop_stop, ?_⟩
  · exact fun dt ready => ⟨advance_of_not_running hphase dt, update_of_not_running hphase,
      draw_of_not_running hphase ready, frame_of_not_running hphase dt ready⟩
  · exact click_of_not_running hphase
  · exact fun key => ⟨_, _, rfl, rfl⟩
  · intro later hlater
    obtain ⟨answers, r', hcalls, hphase', hended', hsilent, hreported⟩ :=
      quiet_of_calls later hended hphase hlater
    exact ⟨answers, r', hcalls, hphase', hended'.atRest hphase', hsilent, hreported⟩
  · intro hphase
    rw [phase_stop, if_pos hphase]

/-- A script that leaves something behind: a box, a listener and a timer. -/
def livelyScript : Script :=
  ⟨[⟨1, .act (.declare "a" (.box (.number 1.0) (.number 2.0) (.number 3.0) (.number 4.0)))⟩,
    ⟨2, .on .click (.act (.say "click"))⟩,
    ⟨3, .on (.every 1.0) (.act (.say "tick"))⟩], []⟩

theorem rests_unless_running_livelyScript :
    ∃ as r,
      (Run.new livelyScript (.seeded 0)).calls
          [.setup, .advance (.ofMillis 1500), .input (.click 1.0 2.0), .stop] = .ok (as, r) ∧
        r.phase = .stopped ∧ r.stage.scene.AtRest (.seeded 0) ∧ r.waiting.length = 2 ∧
        (∀ dt ready, r.frame dt ready = .ok ([], r)) ∧ r.stop.stop = r.stop := by
  have hrun : (Run.new livelyScript (.seeded 0)).endsIn
      [.setup, .advance (.ofMillis 1500), .input (.click 1.0 2.0), .stop]
      (fun r => r.phase == .stopped && r.waiting.length == 2) = true := by decide +kernel
  obtain ⟨as, r, hcalls, htest⟩ := exists_of_endsIn hrun
  simp only [Bool.and_eq_true, beq_iff_eq] at htest
  obtain ⟨hphase, hwaiting⟩ := htest
  have hne : r.phase ≠ .running := by
    rw [hphase]
    simp
  obtain ⟨hrest, hstop, -⟩ := rests_unless_running hcalls
  obtain ⟨hatRest, hframes, -⟩ := hrest hne
  exact ⟨as, r, hcalls, hphase, hatRest, hwaiting, fun dt ready => (hframes dt ready).2.2.2,
    hstop⟩

end Run
end StageScript

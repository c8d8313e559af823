/-
# A setup begins anew

What a run did before a setup has no effect on what it does afterwards.  Its history leaves two
traces behind: the numbers of timers go on, and diagnostics that nobody took still wait.  So the
run behind a setup and a new run of the same script, with the same settings and assets, are twins
(`Run.Twins`): nothing that a call reads tells them apart.  That takes that they get the same
generators.  A seed sees to it; without one they do if they count their setups alike.

Twins stay twins through every call, later setups and previews included, and their answers are
the same.  The one exception is the first answer with diagnostics, which hands over those that
waited before as well (`Answer.behind`).  From then on nothing is left of the history but the
numbers of timers, which no answer mentions.
-/
import StageScript.Proofs.Run.Calls
import StageScript.Proofs.Stage.Twins

namespace StageScript
namespace Run

/-! ## 1. What a host sees -/

/-- What a host sees of a run without changing it. -/
structure View where
  phase : Phase
  /-- In the order in which they are painted. -/
  entities : Entities
  vars : Variables
  keys : Keys
  activeColor : Color
  background : Option Color
  timers : Nat
  listeners : Nat
  clock : Duration
  /-- What a drawing would paint. -/
  strokes : Ready → List Paint
  sounds : List Asset

/-- What a host sees of the run. -/
def view (r : Run) : View where
  phase := r.phase
  entities := r.stage.scene.entities
  vars := r.stage.scene.vars
  keys := r.stage.scene.keys
  activeColor := r.stage.scene.activeColor
  background := r.stage.scene.background
  timers := r.stage.scene.timers.timers.length
  listeners := r.stage.scene.clicks.length
  clock := r.stage.scene.timers.clock
  strokes ready := (r.draw ready).1
  sounds := r.stage.scene.sounds

/-- The answer when other diagnostics waited before those that it hands over. -/
def Answer.behind (pending : List Diagnostic) : Answer → Answer
  | diagnostics ds => diagnostics (pending ++ ds)
  | a => a

/-- What of the other diagnostics waits on when the answer is given. -/
def Answer.left (pending : List Diagnostic) : Answer → List Diagnostic
  | diagnostics _ => []
  | _ => pending

/-- The answers when other diagnostics waited before the first of them. -/
def answersBehind (pending : List Diagnostic) : List Answer → List Answer
  | [] => []
  | a :: as => a.behind pending :: answersBehind (a.left pending) as

/-- What of the other diagnostics waits on when the answers are given. -/
def answersLeft (pending : List Diagnostic) : List Answer → List Diagnostic
  | [] => pending
  | a :: as => answersLeft (a.left pending) as

/-! ## 2. Generators -/

/-- The generator of the last setup, and behind it those of the setups to come. -/
def generators (r : Run) (n : Nat) : Generator :=
  r.stage.scene.config.generator (r.generation + n)

variable {r f : Run}

theorem generators_of_seed {seed : UInt64} (h : r.stage.scene.config.seed = some seed) :
    r.generators = fun _ => .ofSeed seed := by
  funext n
  simp only [generators, RunConfig.generator, h]

theorem generators_begun (r : Run) (n : Nat) : r.begun.generators n = r.generators (n + 1) :=
  congrArg r.stage.scene.config.generator (Nat.add_right_comm r.generation 1 n)

theorem generators_stop (r : Run) : r.stop.generators = r.generators := by
  simp only [stop]
  split <;> split <;> rfl

/-! ## 3. Twins -/

/-- The two runs have the same script, the same phase and the same generators, and their stages are
twins. -/
structure Twins (n : Nat) (pending : List Diagnostic) (r f : Run) : Prop where
  script : r.script = f.script
  phase : r.phase = f.phase
  generators : r.generators = f.generators
  stage : r.stage.Twins n pending f.stage

variable {n : Nat} {pending : List Diagnostic}

/-- The same answer, but for what waited before, and twins behind it. -/
def Answered (n : Nat) (pending : List Diagnostic) (x y : Answer × Run) : Prop :=
  x.1 = y.1.behind pending ∧ Twins n (y.1.left pending) x.2 y.2

/-- The same answers, but for what waited before, and twins behind them. -/
def AllAnswered (n : Nat) (pending : List Diagnostic) (x y : List Answer × Run) : Prop :=
  x.1 = answersBehind pending y.1 ∧ Twins n (answersLeft pending y.1) x.2 y.2

namespace Twins

theorem isRunning (h : Twins n pending r f) : r.isRunning = f.isRunning :=
  congrArg (· == .running) h.phase

/-- Twins look the same. -/
theorem view_eq (h : Twins n pending r f) : r.view = f.view := by
  have hstrokes : (fun ready => (r.draw ready).1) = fun ready => (f.draw ready).1 := by
    funext ready
    simp only [draw, h.isRunning, h.stage.scene]
    split <;> rfl
  have hcount : r.stage.scene.timers.timers.length = f.stage.scene.timers.timers.length :=
    h.stage.same (·.timers.timers.length) fun _ => Timers.length_shift n _
  unfold view
  rw [hstrokes, hcount, h.phase, h.stage.scene]
  rfl

/-- Twins stay twins on other stages that are twins, if the settings are still the same. -/
theorem onStage (h : Twins n pending r f) {pending' : List Diagnostic} {s t : Stage}
    (hs : s.scene.config = r.stage.scene.config) (hstage : s.Twins n pending' t) :
    Twins n pending' { r with stage := s } { f with stage := t } := by
  have hconfig : r.stage.scene.config = f.stage.scene.config :=
    h.stage.same Scene.config fun _ => rfl
  have ht : t.scene.config = f.stage.scene.config :=
    (hstage.same Scene.config fun _ => rfl).symm.trans (hs.trans hconfig)
  have hgenerators := h.generators
  refine ⟨h.script, h.phase, ?_, hstage⟩
  unfold Run.generators at hgenerators ⊢
  rw [hs, ht]
  exact hgenerators

/-- Twins stay twins when the same is done to both scenes, if it keeps the settings and does not
look at the numbers of timers. -/
theorem onScene (h : Twins n pending r f) (g : Scene → Scene)
    (hconfig : ∀ s, (g s).config = s.config) (hg : ∀ s, g (s.shift n) = (g s).shift n) :
    Twins n pending (r.withScene (g r.stage.scene)) (f.withScene (g f.stage.scene)) := by
  refine h.onStage (hconfig _) (h.stage.withScene ?_)
  rw [h.stage.scene, hg]

theorem carryOut (h : Twins n pending r f) (sts : List Statement) :
    Matched (Twins n pending) (r.carryOut sts) (f.carryOut sts) := by
  have hstable := Scene.stable_config r.stage.scene.config
  have hconfig (s : Stage) (hs : Stage.runAll sts r.stage = .ok s) :
      s.scene.config = r.stage.scene.config :=
    Stage.scene_of_runAll hstable.perform hstable.listen hstable.timers sts hs rfl
  exact ((Stage.runAll_twins sts h.stage).strengthen hconfig).map
    fun _ _ hstages => h.onStage hstages.1 hstages.2

end Twins

/-! ## 4. Calls on twins -/

/-- A setup makes twins of two runs that have the same script and get the same generators, and
whose scenes differ in the numbers of the timers alone when it begins. -/
theorem setup_twins (hscript : r.script = f.script)
    (hgenerators : ∀ k, r.generators (k + 1) = f.generators (k + 1))
    (hscene : r.begun.stage.scene = f.begun.stage.scene.shift n)
    (hwaiting : r.waiting = pending ++ f.waiting) :
    Matched (Twins n pending) r.setup f.setup := by
  have hbegun : Twins n pending r.begun f.begun := by
    refine ⟨hscript, rfl, ?_, hscene,
      (r.waiting_begun.trans hwaiting).trans (congrArg _ f.waiting_begun.symm)⟩
    funext k
    rw [generators_begun, generators_begun, hgenerators]
  unfold setup
  rw [hscript]
  exact (hbegun.carryOut _).map fun _ _ h' => h'.onScene (fun s => { s with inSetup := false })
    (fun _ => rfl) fun _ => rfl

namespace Twins

/-- The emptied scenes of twins, with the same one of their generators. -/
theorem reset (h : Twins n pending r f) (k : Nat) :
    r.stage.scene.reset (r.generators k)
      = (f.stage.scene.reset (f.generators k)).shift n := by
  rw [h.generators, h.stage.scene, Scene.reset_shift]

theorem setup (h : Twins n pending r f) : Matched (Twins n pending) r.setup f.setup :=
  setup_twins h.script (fun k => congrFun h.generators (k + 1))
    (congrArg (fun s : Scene => { s with inSetup := true }) (h.reset 1)) h.stage.waiting

theorem stop (h : Twins n pending r f) : Twins n pending r.stop f.stop := by
  refine ⟨?_, ?_, ?_, ?_, ?_⟩
  · rw [script_stop, script_stop, h.script]
  · rw [phase_stop, phase_stop, h.phase]
  · rw [generators_stop, generators_stop, h.generators]
  · rw [stop_scene, stop_scene]
    exact h.reset 0
  · exact r.waiting_stop.trans (h.stage.waiting.trans (congrArg _ f.waiting_stop.symm))

theorem load (h : Twins n pending r f) (script : Script) :
    Twins n pending (r.load script) (f.load script) :=
  ⟨rfl, h.stop.phase, h.stop.generators, h.stop.stage⟩

theorem update (h : Twins n pending r f) : Matched (Twins n pending) r.update f.update := by
  unfold Run.update
  rw [h.isRunning, h.script]
  split
  · exact h.carryOut _
  · exact .result h

theorem advance (h : Twins n pending r f) (dt : Duration) :
    Matched (Twins n pending) (r.advance dt) (f.advance dt) := by
  have htimers : r.stage.scene.timers = f.stage.scene.timers.shift n := by
    rw [h.stage.scene]
    rfl
  unfold Run.advance
  rw [h.isRunning, htimers, Timers.advance_shift]
  split
  · cases f.stage.scene.timers.advance dt with
    | error left => exact .overflow _ _
    | ok x =>
      obtain ⟨fired, ts⟩ := x
      have hscene : r.stage.scene.ageOverlay.withTimers (ts.shift n)
          = (f.stage.scene.ageOverlay.withTimers ts).shift n :=
        congrArg (fun s : Scene => s.ageOverlay.withTimers (ts.shift n)) h.stage.scene
      have hmoved : Twins n pending (r.aged.withTimers (ts.shift n)) (f.aged.withTimers ts) :=
        h.onStage rfl (h.stage.withScene hscene)
      exact hmoved.carryOut fired
  · exact .result h

theorem draw (h : Twins n pending r f) (ready : Ready) :
    (r.draw ready).1 = (f.draw ready).1 ∧
      Twins n pending (r.draw ready).2 (f.draw ready).2 := by
  refine ⟨congrFun (congrArg View.strokes h.view_eq) ready, ?_⟩
  unfold Run.draw
  rw [h.isRunning]
  split
  · exact h.onScene Scene.drawn (fun _ => rfl) fun _ => rfl
  · exact h

theorem follow (h : Twins n pending r f) (key : String) (down : Bool) :
    Twins n pending (r.follow key down) (f.follow key down) :=
  h.onScene (fun s => { s with
    keys := if down then s.keys.press key else s.keys.release key }) (fun _ => rfl) fun _ => rfl

theorem dispatch (h : Twins n pending r f) (i : Input) :
    Matched (Twins n pending) (r.dispatch i) (f.dispatch i) := by
  cases i with
  | keyDown key => exact .result (h.follow key true)
  | keyUp key => exact .result (h.follow key false)
  | click x y =>
    have hclicks : r.stage.scene.clicks = f.stage.scene.clicks :=
      h.stage.same Scene.clicks fun _ => rfl
    have hpointed : Twins n pending (r.pointed x y) (f.pointed x y) :=
      h.onScene (fun s => { s with
        vars := (s.vars.set s.config.pointerX x).set s.config.pointerY y }) (fun _ => rfl)
        fun _ => rfl
    simp only [Run.dispatch, h.isRunning, hclicks]
    split
    · exact hpointed.carryOut _
    · exact .result h

theorem frame (h : Twins n pending r f) (dt : Duration) (ready : Ready) :
    Matched (fun x y => x.1 = y.1 ∧ Twins n pending x.2 y.2)
      (r.frame dt ready) (f.frame dt ready) := by
  rw [frame_eq, frame_eq]
  exact ((h.advance dt).bind fun _ _ h₁ => h₁.update).map fun _ _ h₂ => h₂.draw ready

theorem preview (h : Twins n pending r f) (ready : Ready) :
    Matched (fun x y => x.1 = y.1 ∧ Twins n pending x.2 y.2)
      (r.preview ready) (f.preview ready) := by
  rw [preview_eq, preview_eq]
  exact h.setup.map fun _ _ h₁ => ⟨(h₁.draw ready).1, (h₁.draw ready).2.stop⟩

/-- **A call on twins is answered alike and leaves twins.** -/
theorem call (h : Twins n pending r f) (c : Call) :
    Matched (Answered n pending) (r.call c) (f.call c) := by
  cases c with
  | setup => exact h.setup.map fun _ _ h' => ⟨rfl, h'⟩
  | update => exact h.update.map fun _ _ h' => ⟨rfl, h'⟩
  | advance dt => exact (h.advance dt).map fun _ _ h' => ⟨rfl, h'⟩
  | draw ready =>
    obtain ⟨hstrokes, hdraw⟩ := h.draw ready
    exact .result ⟨congrArg Answer.painted hstrokes, hdraw⟩
  | frame dt ready =>
    exact (h.frame dt ready).map fun _ _ h' => ⟨congrArg Answer.painted h'.1, h'.2⟩
  | preview ready =>
    exact (h.preview ready).map fun _ _ h' => ⟨congrArg Answer.painted h'.1, h'.2⟩
  | stop => exact .result ⟨rfl, h.stop⟩
  | load script => exact .result ⟨rfl, h.load script⟩
  | setAssets assets =>
    exact .result ⟨rfl, h.onScene (fun s => { s with assets := assets }) (fun _ => rfl)
      fun _ => rfl⟩
  | input i => exact (h.dispatch i).map fun _ _ h' => ⟨rfl, h'⟩
  | takeDiagnostics =>
    exact .result ⟨congrArg Answer.diagnostics h.stage.waiting, h.onStage rfl ⟨h.stage.scene, rfl⟩⟩
  | takeSounds =>
    have hsounds : r.stage.scene.sounds = f.stage.scene.sounds :=
      h.stage.same Scene.sounds fun _ => rfl
    exact .result ⟨congrArg Answer.sounds hsounds,
      h.onScene (fun s => { s with sounds := [] }) (fun _ => rfl) fun _ => rfl⟩

/-- A first call that is answered alike, and then any calls on twins. -/
theorem calls_of_call {c : Call} {cs : List Call}
    (hc : Matched (Answered n pending) (r.call c) (f.call c))
    (hcs : ∀ {left : List Diagnostic} {r₁ f₁ : Run}, Twins n left r₁ f₁ →
      Matched (AllAnswered n left) (r₁.calls cs) (f₁.calls cs)) :
    Matched (AllAnswered n pending) (r.calls (c :: cs)) (f.calls (c :: cs)) := by
  rw [calls_cons, calls_cons]
  refine hc.bind ?_
  rintro ⟨a, r₁⟩ ⟨a', f₁⟩ ⟨ha, h₁⟩
  obtain rfl : a = a'.behind pending := ha
  exact (hcs h₁).map fun _ _ h₂ => ⟨congrArg _ h₂.1, h₂.2⟩

/-- **So is every history of calls.** -/
theorem calls : ∀ (cs : List Call) {pending : List Diagnostic} {r f : Run},
    Twins n pending r f → Matched (AllAnswered n pending) (r.calls cs) (f.calls cs)
  | [], _, _, _, h => .result ⟨rfl, h⟩
  | c :: cs, _, _, _, h => calls_of_call (h.call c) (calls cs)

end Twins

/-! ## 5. A run begun anew and a new one -/

/-- A new run of a script with some assets, which counts its setups on from `k`. -/
def fresh (script : Script) (config : RunConfig) (assets : Library) (k : Nat) : Run :=
  { (Run.new script config).setAssets assets with generation := k }

/-- A new run with the script, the settings and the assets of another one. -/
def anew (r : Run) (k : Nat) : Run :=
  fresh r.script r.stage.scene.config r.stage.scene.assets k

/-- When a setup begins, the scene is that of a new run, but for the numbers of the timers. -/
theorem begun_scene {k : Nat} (h : r.generators 1 = (r.anew k).generators 1) :
    r.begun.stage.scene = (r.anew k).begun.stage.scene.shift r.stage.scene.timers.nextId := by
  have hbegun (q : Run) : q.begun.stage.scene
      = { q.stage.scene.reset (q.generators 1) with inSetup := true } := rfl
  rw [hbegun, hbegun, h]
  exact congrArg (fun ts : Timers =>
    { Scene.initial r.stage.scene.config ((r.anew k).generators 1) with
      assets := r.stage.scene.assets, timers := ts, inSetup := true })
    r.stage.scene.timers.clear_eq_shift

/-- A seed gives a new run the same generators, whatever its count. -/
theorem generators_anew {seed : UInt64} (h : r.stage.scene.config.seed = some seed) (k : Nat) :
    r.generators = (r.anew k).generators := by
  have hanew : (r.anew k).stage.scene.config.seed = some seed := h
  rw [generators_of_seed h, generators_of_seed hanew]

/-- **A setup makes any run a twin of a new one** that gets the same generators. -/
theorem setup_anew {k : Nat} (h : ∀ n, r.generators (n + 1) = (r.anew k).generators (n + 1)) :
    Matched (Twins r.stage.scene.timers.nextId r.waiting) r.setup (r.anew k).setup := by
  -- nothing waits in a new run
  have hwaiting : r.waiting = r.waiting ++ (r.anew k).waiting := (List.append_nil _).symm
  exact setup_twins rfl h (begun_scene (h 0)) hwaiting

/-- **Behind a setup any run is answered like a new one** that gets the same generators. -/
theorem calls_anew {k : Nat} (h : ∀ n, r.generators (n + 1) = (r.anew k).generators (n + 1))
    (cs : List Call) :
    Matched (AllAnswered r.stage.scene.timers.nextId r.waiting)
      (r.calls (.setup :: cs)) ((r.anew k).calls (.setup :: cs)) :=
  Twins.calls_of_call ((setup_anew h).map fun _ _ h => ⟨rfl, h⟩) (Twins.calls cs)

/-- **A setup forgets the run before it.**  Take any history and the run it leads to, and beside
it a new run that has the script and the assets that are in place by then, and the same settings.
After a setup, the same calls have a result on both or on neither.  The answers are the same, but
for the diagnostics that waited before the setup, which are handed over first; and the host sees
the same of both runs. -/
theorem setup_forgets {script : Script} {config : RunConfig} {seed : UInt64}
    {history : List Call} {before : List Answer}
    (h : (Run.new script { config with seed := some seed }).calls history = .ok (before, r))
    (cs : List Call) :
    Matched (fun x y =>
        x.1 = answersBehind r.waiting y.1 ∧ x.2.view = y.2.view ∧
          x.2.waiting = answersLeft r.waiting y.1 ++ y.2.waiting)
      (r.calls (.setup :: cs))
      (((Run.new r.script { config with seed := some seed }).setAssets
        r.stage.scene.assets).calls (.setup :: cs)) := by
  have hconfig := config_of_calls h
  have hanew : r.anew 0 = (Run.new r.script { config with seed := some seed }).setAssets
      r.stage.scene.assets := by
    rw [anew, hconfig]
    rfl
  have hseed : r.stage.scene.config.seed = some seed := congrArg RunConfig.seed hconfig
  rw [← hanew]
  refine (calls_anew (fun n => congrFun (generators_anew hseed 0) (n + 1)) cs).mono ?_
  rintro ⟨as, r'⟩ ⟨as', f'⟩ ⟨has, htwins⟩
  exact ⟨has, htwins.view_eq, htwins.stage.waiting⟩

/-- A script that draws a number, and a timer of one second. -/
def drawingScript : Script :=
  ⟨[⟨1, .act (.declare "n" (.random ⟨1, 6⟩))⟩, ⟨2, .on (.every 1.0) (.act (.say "tick"))⟩], []⟩

/-- A tick of the run before waits, and comes out with the one tick since. -/
theorem setup_forgets_drawingScript :
    ∃ before r as r' as' f,
      (Run.new drawingScript (.seeded 7)).calls
          [.setup, .input (.keyDown "a"), .advance (.ofMillis 1500)] = .ok (before, r) ∧
        r.waiting.length = 1 ∧
        r.calls [.setup, .advance (.ofMillis 1000), .takeDiagnostics] = .ok (as, r') ∧
        ((Run.new r.script (.seeded 7)).setAssets
            r.stage.scene.assets).calls [.setup, .advance (.ofMillis 1000), .takeDiagnostics]
          = .ok (as', f) ∧
        as = answersBehind r.waiting as' ∧ r'.view = f.view := by
  have hrun : (Run.new drawingScript (.seeded 7)).endsIn
      [.setup, .input (.keyDown "a"), .advance (.ofMillis 1500)]
      (fun r => r.waiting.length == 1 &&
        r.endsIn [.setup, .advance (.ofMillis 1000), .takeDiagnostics] fun _ => true) = true := by
    decide +kernel
  obtain ⟨before, r, hcalls, htest⟩ := exists_of_endsIn hrun
  simp only [Bool.and_eq_true, beq_iff_eq] at htest
  obtain ⟨hwaiting, hlater⟩ := htest
  obtain ⟨as, r', hr, -⟩ := exists_of_endsIn hlater
  have hforgets := setup_forgets hcalls [.advance (.ofMillis 1000), .takeDiagnostics]
  rw [hr] at hforgets
  obtain ⟨⟨as', f⟩, hf, has, hview, -⟩ := hforgets.exists_of_ok
  exact ⟨before, r, as, r', as', f, hcalls, hwaiting, hr, hf, has, hview⟩

end Run
end StageScript

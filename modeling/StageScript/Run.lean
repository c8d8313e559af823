/-
# A run

A run is a script with a stage, and it is in one of three phases.  Before the first setup it is
`ready`; `setup` carries out the statements of the script from an empty scene and the run is
`running`; `stop` empties the scene, and the run is `stopped` until the next setup.

While it is running the host calls it: `advance` moves the clock and carries out what the timers
release, `update` carries out the statements of every frame, `draw` paints, and `dispatch` takes
what the person at the host does.  In the other phases these calls change nothing, but the keys
that are held are always followed.

`Call` lists what a host may do, and `Run.call` does it; a history of a run is a list of calls.
-/
import StageScript.Command.Reading
import StageScript.Stage

namespace StageScript

/-- The phases of a run. -/
inductive Phase where
  | ready
  | running
  | stopped
  deriving DecidableEq, Repr

/-- The name of a phase. -/
def Phase.name : Phase → String
  | ready => "ready"
  | running => "running"
  | stopped => "stopped"

/-- What the person at the host does. -/
inductive Input where
  | keyDown (key : String)
  | keyUp (key : String)
  /-- In canvas units. -/
  | click (x y : Float)

/-- A script and the stage it is played on. -/
structure Run where
  script : Script
  stage : Stage
  phase : Phase
  /-- The number of setups so far. -/
  generation : Nat

namespace Run

/-! ## 1. Phases -/

/-- A run that has not begun. -/
def new (script : Script) (config : RunConfig) : Run := ⟨script, .initial config, .ready, 0⟩

/-- The same run with another scene. -/
def withScene (r : Run) (s : Scene) : Run := { r with stage := { r.stage with scene := s } }

/-- Writes an event. -/
def log (r : Run) (e : Event) : Run := { r with stage := r.stage.log e }

/-- Gives the run other assets. -/
def setAssets (r : Run) (assets : Library) : Run :=
  r.withScene { r.stage.scene with assets := assets }

/-- The run is running. -/
def isRunning (r : Run) : Bool := r.phase == .running

/-- Carries out statements on the stage of the run. -/
def carryOut (r : Run) (sts : List Statement) : Except Overflow Run :=
  (Stage.runAll sts r.stage).map fun stage => { r with stage := stage }

/-- The run with an empty scene.  Which generator is put in place only matters when a setup begins,
as no other phase draws numbers; it is that of the last setup. -/
def cleared (r : Run) : Run :=
  r.withScene (r.stage.scene.reset (r.stage.scene.config.generator r.generation))

/-- The run before the first statement of its setup: the scene is empty. -/
def begun (r : Run) : Run :=
  let r := { r with generation := r.generation + 1, phase := .running }
  let r := r.cleared
  let r := r.log (.started r.generation r.script.statements.length r.script.perFrame.length)
  r.withScene { r.stage.scene with inSetup := true }

/-- The run behind the last statement of its setup. -/
def settled (r : Run) : Run := r.withScene { r.stage.scene with inSetup := false }

/-- Begins anew: empties the scene and carries out the statements of the setup. -/
def setup (r : Run) : Except Overflow Run := (r.begun.carryOut r.script.setup).map settled

/-- Ends the run and empties the scene. -/
def stop (r : Run) : Run :=
  let r := if r.isRunning then r.log (.stopped r.generation) else r
  let r := r.cleared
  if r.phase = .ready then r else { r with phase := .stopped }

/-- Ends the run and takes another script. -/
def load (r : Run) (script : Script) : Run := { r.stop with script := script }

/-! ## 2. Frames -/

/-- Carries out the statements of every frame. -/
def update (r : Run) : Except Overflow Run :=
  if r.isRunning then r.carryOut r.script.perFrame else .ok r

/-- The run when a step of the clock begins. -/
def aged (r : Run) : Run := r.withScene r.stage.scene.ageOverlay

/-- The run with other timers. -/
def withTimers (r : Run) (ts : Timers) : Run := r.withScene { r.stage.scene with timers := ts }

/-- Moves the clock, and carries out what the timers release. -/
def advance (r : Run) (dt : Duration) : Except Overflow Run :=
  if r.isRunning then
    match r.stage.scene.timers.advance dt with
    | .error timers => .error ⟨(r.aged.withTimers timers).stage⟩
    | .ok (fired, timers) => (r.aged.withTimers timers).carryOut fired
  else .ok r

/-- What a drawing paints, and the run behind it. -/
def draw (r : Run) (ready : Ready) : List Paint × Run :=
  if r.isRunning then (r.stage.scene.painted ready, r.withScene r.stage.scene.drawn)
  else ([], r)

/-- The run when a key goes down or up.  Every phase follows the keys. -/
def follow (r : Run) (key : String) (down : Bool) : Run :=
  let keys := r.stage.scene.keys
  r.withScene { r.stage.scene with keys := if down then keys.press key else keys.release key }

/-- The run with the place of a click in the two pointer variables. -/
def pointed (r : Run) (x y : Float) : Run :=
  let scene := r.stage.scene
  r.withScene { scene with
    vars := (scene.vars.set scene.config.pointerX x).set scene.config.pointerY y }

/-- Takes what the person at the host does.  A click first sets the two pointer variables, and
then reaches the listeners that are registered by then. -/
def dispatch (r : Run) : Input → Except Overflow Run
  | .keyDown key => .ok (r.follow key true)
  | .keyUp key => .ok (r.follow key false)
  | .click x y =>
    if r.isRunning then (r.pointed x y).carryOut r.stage.scene.clicks else .ok r

/-- One step of the clock, one update and one drawing. -/
def frame (r : Run) (dt : Duration) (ready : Ready) : Except Overflow (List Paint × Run) := do
  let r ← r.advance dt
  let r ← r.update
  pure (r.draw ready)

/-- Paints the first frame and leaves the run stopped. -/
def preview (r : Run) (ready : Ready) : Except Overflow (List Paint × Run) := do
  let r ← r.setup
  let (paints, r) := r.draw ready
  pure (paints, r.stop)

/-! ## 3. What the host takes -/

/-- Takes the diagnostics that wait. -/
def takeDiagnostics (r : Run) : List Diagnostic × Run :=
  let (ds, journal) := r.stage.journal.take
  (ds, { r with stage := { r.stage with journal := journal } })

/-- Takes the sounds that wait. -/
def takeSounds (r : Run) : List Asset × Run :=
  (r.stage.scene.sounds, r.withScene { r.stage.scene with sounds := [] })

/-! ## 4. Calls -/

/-- What a host may do to a run. -/
inductive Call where
  | setup
  | update
  | advance (dt : Duration)
  | draw (ready : Ready)
  | frame (dt : Duration) (ready : Ready)
  | preview (ready : Ready)
  | stop
  | load (script : Script)
  | setAssets (assets : Library)
  | input (i : Input)
  | takeDiagnostics
  | takeSounds

/-- What a call hands back. -/
inductive Answer where
  | nothing
  | painted (strokes : List Paint)
  | diagnostics (ds : List Diagnostic)
  | sounds (as : List Asset)

/-- Does what the host asks. -/
def call (r : Run) : Call → Except Overflow (Answer × Run)
  | .setup => (r.setup).map (.nothing, ·)
  | .update => (r.update).map (.nothing, ·)
  | .advance dt => (r.advance dt).map (.nothing, ·)
  | .draw ready => let (ps, r) := r.draw ready; .ok (.painted ps, r)
  | .frame dt ready => (r.frame dt ready).map fun (ps, r) => (.painted ps, r)
  | .preview ready => (r.preview ready).map fun (ps, r) => (.painted ps, r)
  | .stop => .ok (.nothing, r.stop)
  | .load script => .ok (.nothing, r.load script)
  | .setAssets assets => .ok (.nothing, r.setAssets assets)
  | .input i => (r.dispatch i).map (.nothing, ·)
  | .takeDiagnostics => let (ds, r) := r.takeDiagnostics; .ok (.diagnostics ds, r)
  | .takeSounds => let (as, r) := r.takeSounds; .ok (.sounds as, r)

/-- Does what the host asks, call by call. -/
def calls (r : Run) : List Call → Except Overflow (List Answer × Run)
  | [] => .ok ([], r)
  | c :: cs =>
    match r.call c with
    | .error o => .error o
    | .ok (a, r) => (r.calls cs).map fun (as, r) => (a :: as, r)

end Run
end StageScript

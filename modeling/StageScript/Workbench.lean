/-
# The workbench

The host of a script: an editor with its text, a run, the assets of a folder, a console, and
tabs that show one side of it at a time.  While no run is running the canvas shows a still
frame, which is recorded again whenever the text or the assets change.

Nothing that a preview reports or plays reaches the console or the player.  After everything that
may carry out commands of a run, its diagnostics are moved to the console and its sounds are
handed to the player.
-/
import StageScript.Canvas.Surface
import StageScript.Files
import StageScript.HostKeys
import StageScript.Run
import StageScript.Settings
import StageScript.Toolkit

namespace StageScript

/-- The state of the host. -/
structure Workbench where
  settings : Settings
  editor : Editor
  run : Run
  library : Library
  textures : Textures Picture
  console : List Diagnostic
  /-- The sounds that the player was handed, in order. -/
  played : List Asset
  /-- What the canvas shows while no run is running. -/
  preview : DrawList
  tab : Tab
  /-- The time, in nanoseconds. -/
  now : Nat
  /-- When the clock of the run was moved last. -/
  lastTick : Nat
  files : Files
  /-- Who has the keyboard. -/
  focus : Focus
  /-- The keys of the window that are down. -/
  keysDown : List String

namespace Workbench

/-- The text in the editor. -/
def source (b : Workbench) : String := b.editor.text

/-! ## 1. Constants -/

/-- The script of an editor that is given none. -/
def sampleScript : String :=
  "// arrow keys move the box, click to score
make background #87ceeb
let score = 0
make it #ff6600
let player = spawn 380 280 40 40
let label = text \"Click the sky!\" at (20,40) size 24 colour black font \"Arial\"

if key \"ArrowUp\" down then player.y = player.y - 4
if key \"ArrowDown\" down then player.y = player.y + 4
if key \"ArrowLeft\" down then player.x = player.x - 4
if key \"ArrowRight\" down then player.x = player.x + 4

every 1 seconds then rotate player by 15 degrees
on click add score 1
on click draw circle at (mouseX, mouseY) radius 6
"

/-- Where a script is saved that came from no file. -/
def defaultScriptFile : String := "script.jcs"

/-- The longest step that the clock of a run takes in one frame. -/
def maxStep : Duration := .ofMillis 100

/-! ## 2. The run -/

/-- Moves the diagnostics of the run to the console, and hands its sounds to the player. -/
def drain (b : Workbench) : Workbench :=
  let (ds, run) := b.run.takeDiagnostics
  let (sounds, run) := run.takeSounds
  { b with console := b.console ++ ds, played := b.played ++ sounds, run := run }

/-- The recording of the first frame, and the run behind it, which is stopped. -/
def previewed (run : Run) (list : DrawList) : DrawList × Run :=
  match run.preview list.ready with
  | .ok (paints, run) => (list.paintAll paints, run)
  | .error o => (list, ({ run.begun with stage := o.stage } : Run).stop)

/-- Records the still frame of the present text, unless a run is running.  What the preview
reports and plays is dropped. -/
def refreshPreview (b : Workbench) : Workbench :=
  if b.run.isRunning then b
  else
    let (list, run) := previewed (b.run.load (Script.ofText b.source)) b.preview.clear
    { b with preview := list, run := run.takeDiagnostics.2.takeSounds.2 }

/-- Ends the run and shows the still frame again. -/
def stop (b : Workbench) : Workbench :=
  ({ b with run := b.run.stop } : Workbench).drain.refreshPreview

/-- Goes on with the run behind a call.  A call that leaves the range of the clock ends the
run, and the console says during what. -/
def guard (b : Workbench) (what : String) : Except Overflow Run → Workbench
  | .ok run => { b with run := run }
  | .error o =>
    let failure := Diagnostic.plain .error ("Runtime failure during " ++ what ++ "; run stopped")
    ({ b with
      run := { b.run with stage := o.stage }
      console := b.console ++ [failure] } : Workbench).stop

/-- The warnings about the lines of a script that are no command. -/
def warnings (script : Script) : List Diagnostic :=
  script.unrecognized.map fun u =>
    ⟨.warn, "not recognized: " ++ u.text, some u.line, some u.reason.code⟩

/-- Starts a run of the present text.  The setup is not guarded.  It has a result whatever the text
is (`start_eq`), so the second case never comes up. -/
def start (b : Workbench) : Workbench :=
  let script := Script.ofText b.source
  let warned := if b.settings.warnUnrecognized then warnings script else []
  let b := { b with console := b.console ++ warned }
  match (b.run.load script).setup with
  | .ok run => ({ b with run := run, lastTick := b.now } : Workbench).drain
  | .error _ => b

/-- Reads the assets of the folder again. -/
def reloadAssets (b : Workbench) : Workbench :=
  let library := match b.files.list? b.settings.assetsDir with
    | some files => (Library.empty.load files).1
    | none => .empty
  { b with
    library := library
    textures := b.textures.rebuild library
    run := b.run.setAssets library }

/-- The file that the text is saved to. -/
def scriptFile (b : Workbench) : String := b.settings.script.getD defaultScriptFile

/-- What the console says about a save. -/
def saveReport (path : String) : Option FileError → Diagnostic
  | none => .plain .info ("Saved " ++ path)
  | some e => .plain .error ("Could not save " ++ path ++ ": " ++ e.text)

/-- Saves the text, and says in the console whether that went well. -/
def save (b : Workbench) : Workbench :=
  let (files, failure) := b.files.save b.scriptFile b.source.toUTF8
  { b with files := files, console := b.console ++ [saveReport b.scriptFile failure] }

/-- The settings of a run at the workbench. -/
def runConfig (entropy : Nat → Generator) (settings : Settings) : RunConfig :=
  { RunConfig.standard entropy with seed := settings.seed }

/-- The workbench of some settings in a folder. -/
def new (entropy : Nat → Generator) (settings : Settings) (files : Files) : Workbench :=
  let source := (settings.script.bind files.readText?).getD sampleScript
  let b : Workbench :=
    { settings := settings
      editor := .ofText source
      run := Run.new (Script.ofText source) (runConfig entropy settings)
      library := .empty
      textures := .empty
      console := []
      played := []
      preview := .empty
      tab := .canvas
      now := 0
      lastTick := 0
      files := files
      focus := .free
      keysDown := [] }
  b.reloadAssets.refreshPreview

/-! ## 3. Keys and the clock -/

/-- The run hears of every release of a key, but of a press only if the key was up and no control
has the keyboard. -/
def hearsKey (b : Workbench) (name : String) (down : Bool) : Bool :=
  !down || !(b.keysDown.contains name || b.focus.isHeld)

/-- The keys of the window that are down behind a press or a release. -/
def keysBehind (b : Workbench) (name : String) (down : Bool) : List String :=
  if down then if b.keysDown.contains name then b.keysDown else b.keysDown ++ [name]
  else b.keysDown.filter (· != name)

/-- A key of the window goes down or up. -/
def key (b : Workbench) (name : String) (down : Bool) : Workbench :=
  { b with
    keysDown := b.keysBehind name down
    run :=
      if b.hearsKey name down then b.run.follow (HostKeys.scriptName name) down else b.run }

/-- Moves the run by the time since its last step. -/
def tick (b : Workbench) : Workbench :=
  if b.run.isRunning then
    let dt := Duration.between b.lastTick b.now maxStep
    let b := { b with lastTick := b.now }
    (b.guard "update" (b.run.advance dt >>= Run.update)).drain
  else b

/-- Replaces the text in the editor. -/
def edit (b : Workbench) (text : String) : Workbench :=
  ({ b with editor := .ofText text } : Workbench).refreshPreview

/-- A key goes down while the editor has the keyboard. -/
def typeKey (kit : Toolkit) (b : Workbench) (name : String) : Workbench :=
  let (editor, changed) := kit.type name b.editor
  let b := { b with editor := editor }
  if changed then b.refreshPreview else b

/-- A click on the canvas. -/
def click (b : Workbench) (x y : Float) : Workbench :=
  if b.run.isRunning then (b.guard "click" (b.run.dispatch (.click x y))).drain else b

/-- What the canvas shows: a frame of the run, or the still frame. -/
def paintCanvas (b : Workbench) : List Paint × Workbench :=
  if b.run.isRunning then
    let (paints, run) := b.run.draw b.textures.isReady
    (paints, { b with run := run })
  else (b.preview.replay b.textures.isReady, b)

end Workbench
end StageScript

/-
# A frame of the workbench

A frame takes what the person did since the last one and shows the workbench.  Its parts come
in a fixed order: finished textures, keys, the step of the run, the editor, the status with its
buttons, the tabs, and what the open tab holds.  A button or tab that is pressed acts at its
place in that order, so what stands before it still shows the old state and what stands behind
it the new one.  What the keyboard means is up to the toolkit that shows the workbench.

What a person does with a pointer takes several frames (`gesture`): the button goes down, which
may take the keyboard from a control, it goes up, which acts, and one more frame shows the
result.
-/
import StageScript.Workbench.Label

namespace StageScript

/-- What happened since the last frame. -/
structure Happening where
  /-- A key of the window, and whether it went down. -/
  key : Option (String × Bool)
  /-- Where a pointer went down. -/
  touch : Touch
  /-- The text that replaces the one in the editor. -/
  edit : Option String
  /-- The button or tab that a pointer pressed. -/
  press : Option Control
  /-- The place on the canvas that was clicked. -/
  click : Option (Float × Float)

namespace Happening

/-- Nothing happened. -/
def nothing : Happening := ⟨none, .none, none, none, none⟩

/-- A pointer goes down, and nothing else happens. -/
def down (touch : Touch) : Happening := { nothing with touch := touch }

/-- The key that went down. -/
def pressedKey (h : Happening) : Option String :=
  match h.key with
  | some (name, true) => some name
  | _ => none

end Happening

/-- What a frame shows. -/
structure View where
  editor : String
  labels : List Label
  /-- The shapes on the canvas, if it is shown. -/
  canvas : Option (List Shape)

namespace Workbench

/-! ## 1. Buttons and tabs -/

/-- The caption of a button or a tab. -/
def caption (b : Workbench) : Control → String
  | .clearConsole => "clear console"
  | .save => "save"
  | .startStop => if b.run.isRunning then "stop" else "run"
  | .tab t => b.tabCaption t
  | .reload => "reload"
  | .editor | .canvas => ""

/-- What a control does when it is pressed. -/
def act (b : Workbench) : Control → Workbench
  | .clearConsole => { b with console := [] }
  | .save => b.save
  | .startStop => if b.run.isRunning then b.stop else b.start
  | .tab t => { b with tab := t }
  | .reload => b.reloadAssets.refreshPreview
  | .editor | .canvas => b

/-- Shows a button, which acts if it is the control that was pressed. -/
def showButton (pressed : Option Control) (b : Workbench) (c : Control) : Label × Workbench :=
  (.plain (b.caption c), if pressed = some c then b.act c else b)

/-- The status and the buttons beside it. -/
def showStatus (pressed : Option Control) (b : Workbench) : List Label × Workbench :=
  let status := b.statusLabel
  let (l₁, b) := showButton pressed b .clearConsole
  let (l₂, b) := showButton pressed b .save
  let (l₃, b) := showButton pressed b .startStop
  ([status, l₁, l₂, l₃], b)

/-- The tabs.  One that was pressed is open from then on. -/
def showTabs (pressed : Option Control) (b : Workbench) : List Label × Workbench :=
  let labels := Control.tabs.map fun t => Label.plain (b.tabCaption t)
  match pressed with
  | some (.tab t) => (labels, b.act (.tab t))
  | _ => (labels, b)

/-! ## 2. The open tab -/

/-- The canvas in the window. -/
def surface (b : Workbench) : Surface :=
  ⟨.ofSize ⟨0, 0⟩ b.settings.canvasWidth b.settings.canvasHeight, 1⟩

/-- The canvas.  A click reaches the run after it was painted. -/
def showCanvas (h : Happening) (b : Workbench) : List Shape × Workbench :=
  let (paints, b) := b.paintCanvas
  let shapes := b.surface.paint b.textures.isReady paints
  match h.click with
  | some (x, y) => (shapes, b.click x y)
  | none => (shapes, b)

/-- The folder of the assets, a button that reads it again, and the assets. -/
def showAssets (pressed : Option Control) (b : Workbench) : List Label × Workbench :=
  let (button, b) := showButton pressed b .reload
  (.plain b.settings.assetsDir :: button :: b.assetLabels, b)

/-- What the open tab holds. -/
def showTab (h : Happening) (pressed : Option Control) (b : Workbench) :
    List Label × Option (List Shape) × Workbench :=
  match b.tab with
  | .canvas => let (shapes, b) := showCanvas h b; ([], some shapes, b)
  | .console => (b.consoleLabels, none, b)
  | .state => (b.stateLabels, none, b)
  | .script => (b.scriptLabels, none, b)
  | .assets => let (labels, b) := showAssets pressed b; (labels, none, b)
  | .help => (helpLabels, none, b)

/-! ## 3. Frames -/

variable (kit : Toolkit)

/-- The control that is pressed in a frame, by a pointer or by a key. -/
def pressedControl (h : Happening) (b : Workbench) : Option Control :=
  match h.press, h.pressedKey with
  | some c, _ => some c
  | none, some key => if key ∈ kit.pressingKeys then b.focus.holder else none
  | none, none => none

/-- The editor, which a new text, a key or a pointer may change. -/
def showEditor (h : Happening) (b : Workbench) : Workbench :=
  let b := if h.touch = .control .editor then { b with editor := kit.touch b.editor } else b
  match h.edit, h.pressedKey with
  | some text, _ => b.edit text
  | none, some name => if b.focus.holder = some .editor then b.typeKey kit name else b
  | none, none => b

/-- The keys of a frame, and the step of the run. -/
def takeInput (h : Happening) (b : Workbench) : Workbench :=
  let b := { b with focus := kit.beginFrame h.pressedKey b.focus }
  let b := match h.key with
    | some (name, down) => b.key name down
    | none => b
  b.tick

/-- One frame. -/
def frame (h : Happening) (b : Workbench) : View × Workbench :=
  let old := b.focus
  let controls := Control.shown b.tab
  let b := { b with textures := b.textures.settle kit.decode }
  let b := takeInput kit h b
  let b := { b with focus := kit.showControls controls h.pressedKey h.touch b.focus }
  let pressed := pressedControl kit h b
  let b := showEditor kit h b
  let (status, b) := showStatus pressed b
  let (captions, b) := showTabs pressed b
  let (content, canvas, b) := showTab h pressed b
  let b := { b with focus := kit.endFrame controls h.pressedKey old b.focus }
  (⟨b.source, status ++ captions ++ content, canvas⟩, b)

/-- A frame in which nothing happened. -/
def idle (b : Workbench) : View × Workbench := frame kit .nothing b

/-- The last one of several frames. -/
def frames : List Happening → Workbench → View × Workbench
  | [], b => idle kit b
  | h :: hs, b => frames hs (frame kit h b).2

/-! ## 4. Gestures -/

/-- What a person does at the workbench. -/
inductive Gesture where
  | wait (time : Duration)
  | press (caption : String)
  | click (x y : Float)
  | edit (text : String)
  | focus
  | blur
  | key (name : String) (down : Bool)

/-- The control that a person means by a caption.  The tab of the console is also known without
the number of errors. -/
def named? (b : Workbench) (caption : String) : Option Control :=
  if caption = tabName .console then some (.tab .console)
  else (Control.shown b.tab).find? fun c => b.caption c == caption

/-- The frames of a gesture, of which the last one is shown. -/
def gesture (b : Workbench) : Gesture → View × Workbench
  | .wait time => idle kit { b with now := b.now + time.nanos }
  | .press caption =>
    match b.named? caption with
    | some c => frames kit [.down (.control c), { Happening.nothing with press := some c }] b
    | none => frames kit [.down .empty, .nothing] b
  | .click x y =>
    frames kit [.down (.control .canvas), { Happening.nothing with click := some (x, y) }] b
  | .edit text =>
    frames kit [.down (.control .editor), .nothing, { Happening.nothing with edit := some text }] b
  | .focus => frames kit [.down (.control .editor), .nothing] b
  | .blur => frames kit [.down .empty, .nothing] b
  | .key name down => frame kit { Happening.nothing with key := some (name, down) } b

end Workbench
end StageScript

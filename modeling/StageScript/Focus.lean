/-
# Who has the keyboard

At most one control of the window has the keyboard.  The tabulator hands it from control to
control in the order in which they are shown, a pointer that goes down takes it from every
control but the one beneath it, and the escape key gives it up.  Behind the last control it is
handed on to the first one, but only in the next frame.

An arrow key takes the keyboard to the next control in its direction.  The editor keeps the
arrow keys to itself, from its second frame with the keyboard on.
-/

namespace StageScript

/-- The sides of the workbench. -/
inductive Tab where
  | canvas
  | console
  | state
  | script
  | assets
  | help
  deriving DecidableEq, Repr

/-- What can have the keyboard. -/
inductive Control where
  | editor
  | clearConsole
  | save
  /-- Starts a run, and stops one. -/
  | startStop
  | tab (t : Tab)
  | canvas
  /-- Reads the assets again. -/
  | reload
  deriving DecidableEq, Repr

namespace Control

/-- The tabs in the order in which they stand. -/
def tabs : List Tab := [.canvas, .console, .state, .script, .assets, .help]

/-- The control in the open tab, if it holds one. -/
def content : Tab → List Control
  | .canvas => [canvas]
  | .assets => [reload]
  | _ => []

/-- The controls in the order in which they are shown. -/
def shown (t : Tab) : List Control :=
  [editor, clearConsole, save, startStop] ++ tabs.map tab ++ content t

/-- The control behind another one. -/
def behind? (c : Control) : List Control → Option Control
  | d :: e :: rest => if d = c then some e else behind? c (e :: rest)
  | _ => none

/-! ## 1. Directions -/

/-- The directions of the arrow keys. -/
inductive Direction where
  | left
  | right
  | up
  | down
  deriving DecidableEq, Repr

/-- The direction of a key. -/
def Direction.ofKey? : String → Option Direction
  | "Left" => some left
  | "Right" => some right
  | "Up" => some up
  | "Down" => some down
  | _ => none

/-- The controls in a direction, the nearest first, whatever tab is open.  The editor fills the
left half of the window.  At the top of the right half stand the buttons, pushed to the right
edge in the order start, save, clear; below them the tabs, from the left edge on; and below
these what the open tab holds. -/
def beside : Control → Direction → List Control
  | editor, .right => [tab .canvas]
  | clearConsole, .left => [save]
  | save, .left => [startStop]
  | save, .right => [clearConsole]
  | startStop, .left => [tab .help]
  | startStop, .right => [save]
  | clearConsole, .down | save, .down | startStop, .down => [canvas]
  | tab .canvas, .left => [editor]
  | tab .console, .left => [tab .canvas]
  | tab .state, .left => [tab .console]
  | tab .script, .left => [tab .state]
  | tab .assets, .left => [tab .script]
  | tab .help, .left => [tab .assets]
  | tab .canvas, .right => [tab .console]
  | tab .console, .right => [tab .state]
  | tab .state, .right => [tab .script]
  | tab .script, .right => [tab .assets]
  | tab .assets, .right => [tab .help]
  | tab .help, .right => [startStop]
  | tab .console, .down => [canvas, reload]
  | tab _, .down => [canvas]
  | canvas, .left => [editor]
  | canvas, .up => [tab .canvas]
  | reload, .left => [tab .canvas]
  | reload, .up => [tab .console]
  | reload, .right => [tab .state]
  | _, _ => []

end Control

/-! ## 2. The focus -/

/-- Where a pointer goes down in a frame. -/
inductive Touch where
  | none
  /-- At a place that is no control. -/
  | empty
  | control (c : Control)
  deriving DecidableEq, Repr

/-- The state of the keyboard between two frames. -/
structure Focus where
  holder : Option Control
  /-- The holder keeps the arrow keys to itself. -/
  keepsArrows : Bool
  /-- The first control of the next frame gets the keyboard. -/
  handedOn : Bool
  deriving DecidableEq, Repr

namespace Focus

/-- Nobody has the keyboard. -/
def free : Focus := ⟨none, false, false⟩

/-- A control has the keyboard. -/
def isHeld (f : Focus) : Bool := f.holder.isSome

/-- At the start of a frame the escape key gives the keyboard up. -/
def begin (f : Focus) (pressed : Option String) : Focus :=
  if pressed = some "Escape" then ⟨none, false, f.handedOn⟩ else f

/-- While the controls are shown, the keyboard is handed on. -/
def handOver (f : Focus) (controls : List Control) (pressed : Option String) : Focus :=
  if f.handedOn then ⟨controls.head?, false, false⟩
  else if pressed = some "Tab" then
    match f.holder with
    | none => ⟨controls.head?, false, false⟩
    | some c =>
      match c.behind? controls with
      | some d => ⟨some d, false, false⟩
      | none => ⟨none, false, true⟩
  else f

/-- A pointer that goes down takes the keyboard away, and only the editor takes it for that. -/
def touch (f : Focus) : Touch → Focus
  | .none => f
  | .empty => ⟨none, false, f.handedOn⟩
  | .control c =>
    if c = .editor ∨ f.holder = some c then { f with holder := some c }
    else ⟨none, false, f.handedOn⟩

/-- At the end of a frame an arrow key takes the keyboard to another control. -/
def steer (f : Focus) (controls : List Control) (pressed : Option String) : Focus :=
  match f.holder, pressed.bind Control.Direction.ofKey? with
  | some c, some d =>
    match (c.beside d).find? (· ∈ controls) with
    | some next => ⟨some next, false, f.handedOn⟩
    | none => f
  | _, _ => f

/-- At the end of a frame the editor keeps the arrow keys if it has the keyboard for the second
frame. -/
def settle (f : Focus) (holderBefore : Option Control) : Focus :=
  { f with keepsArrows := f.holder = some .editor ∧ holderBefore = some .editor }

end Focus
end StageScript

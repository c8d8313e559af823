/-
# The toolkit of the window

What shows the workbench is no part of it.  A toolkit says which files can be shown as pictures,
who gets the keyboard, and what a key does in the editor.  The workbench takes its word for all
that, but for one thing: as long as the editor does not report a change, its text is the same.

`Toolkit.standard` follows the rules of the modules on the focus and on the editor, and takes a
file for a picture by the bytes with which it begins.
-/
import StageScript.Canvas.Textures
import StageScript.Editor
import StageScript.Focus

namespace StageScript

/-- What stands between the person and the workbench. -/
structure Toolkit where
  /-- The picture of a file; nothing for a file that is none. -/
  decode : ByteArray → Option Picture
  /-- Who has the keyboard when a frame begins in which a key may have gone down. -/
  beginFrame : Option String → Focus → Focus
  /-- Who has it while the controls are shown. -/
  showControls : List Control → Option String → Touch → Focus → Focus
  /-- Who has it behind the frame, given who had it before. -/
  endFrame : List Control → Option String → Focus → Focus → Focus
  /-- The keys that press the control that has the keyboard. -/
  pressingKeys : List String
  /-- A pointer goes down in the editor. -/
  touch : Editor → Editor
  text_touch : ∀ e, (touch e).text = e.text
  /-- A key goes down in the editor, which reports whether it changed the text. -/
  type : String → Editor → Editor × Bool
  text_type : ∀ {name e}, (type name e).2 = false → (type name e).1.text = e.text

/-- A toolkit that takes the keyboard around the controls, and puts the caret at the end of the
text for a pointer. -/
def Toolkit.standard : Toolkit where
  decode := Picture.ofBytes?
  beginFrame pressed f := f.begin pressed
  showControls controls pressed touch f := (f.handOver controls pressed).touch touch
  endFrame controls pressed old f :=
    (if old.keepsArrows then f else f.steer controls pressed).settle old.holder
  pressingKeys := ["Enter", "Space"]
  touch := Editor.finish
  text_touch := Editor.text_finish
  type := Editor.type
  text_type := Editor.text_type

end StageScript

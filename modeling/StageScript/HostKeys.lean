/-
# Keys of the window

The window has names of its own for keys.  A script knows an arrow key by a longer name, the
space bar by its character and a key of one letter by the small letter; any other key has one
name for both.
-/
import StageScript.Text.Lower

namespace StageScript
namespace HostKeys

/-- The names of the window that are neither letters, digits nor function keys. -/
def namedKeys : List String :=
  ["Down", "Left", "Right", "Up", "Escape", "Tab", "Backspace", "Enter", "Insert", "Delete",
   "Home", "End", "PageUp", "PageDown", "Copy", "Cut", "Paste", "Space", "Colon", "Comma",
   "Minus", "Period", "Plus", "Equals", "Semicolon", "Backslash", "Slash", "Pipe",
   "Questionmark", "Exclamationmark", "OpenBracket", "CloseBracket", "OpenCurlyBracket",
   "CloseCurlyBracket", "Backtick", "Quote", "BrowserBack"]

/-- The digits and the capital letters, each the name of its key. -/
def characterKeys : List String :=
  ("0123456789ABCDEFGHIJKLMNOPQRSTUVWXYZ".toList).map String.singleton

/-- The function keys. -/
def functionKeys : List String := (List.range 35).map fun n => "F" ++ toString (n + 1)

/-- The window has a key of this name. -/
def isKey (name : String) : Bool :=
  namedKeys.contains name || characterKeys.contains name || functionKeys.contains name

/-- The name that a script uses for a key of the window. -/
def scriptName : String → String
  | "Up" => "ArrowUp"
  | "Down" => "ArrowDown"
  | "Left" => "ArrowLeft"
  | "Right" => "ArrowRight"
  | "Space" => " "
  | name => if name.utf8ByteSize = 1 then String.ofList (Text.lowerAscii name.toList) else name

/-- The name that a script uses for a key, if the window has the key. -/
def scriptName? (name : String) : Option String :=
  if isKey name then some (scriptName name) else none

end HostKeys
end StageScript

/-
# Settings

What the person at the host may decide in a file: where the assets are, which script to begin
with, the size of the canvas, whether lines that are no command are reported, and a seed.
Every field may be missing.  A file that is no settings at all leaves them at their defaults.

The fields may be given by name, in any order and each once, or as a list by position.
-/
import StageScript.Settings.Document

namespace StageScript

/-- The settings of a host. -/
structure Settings where
  assetsDir : String
  /-- The script that the editor begins with. -/
  script : Option String
  canvasWidth : Float32
  canvasHeight : Float32
  /-- Lines that are no command are shown as warnings. -/
  warnUnrecognized : Bool
  seed : Option UInt64

namespace Settings

/-- The settings without a file. -/
def standard : Settings := ⟨"assets", none, 800, 600, false, none⟩

/-- The name of the settings file. -/
def fileName : String := "jcscript.json"

/-! ## 1. Fields -/

/-- The fields, in the order of their positions. -/
inductive Field where
  | assetsDir
  | script
  | canvasWidth
  | canvasHeight
  | warnUnrecognized
  | seed
  deriving DecidableEq, Repr

namespace Field

/-- Every field, by position. -/
def all : List Field := [assetsDir, script, canvasWidth, canvasHeight, warnUnrecognized, seed]

/-- The name of a field in the file. -/
def name : Field → String
  | assetsDir => "assets_dir"
  | script => "script"
  | canvasWidth => "canvas_width"
  | canvasHeight => "canvas_height"
  | warnUnrecognized => "warn_unrecognized"
  | seed => "seed"

end Field

/-- The text that a value is. -/
def text? : Document → Option String
  | .text raw => Document.textOf? raw
  | _ => none

/-- The number that a value is. -/
def number? : Document → Option Numeral
  | .numeral parts => Numeral.ofParts? parts
  | _ => none

/-- The settings with a field as a value says; nothing if the value does not fit. -/
def set? (s : Settings) (f : Field) (d : Document) : Option Settings :=
  match f, d with
  | .assetsDir, d => (text? d).map fun t => { s with assetsDir := t }
  | .script, .null => some { s with script := none }
  | .script, d => (text? d).map fun t => { s with script := some t }
  | .canvasWidth, d => (number? d).map fun n => { s with canvasWidth := n.toFloat32 }
  | .canvasHeight, d => (number? d).map fun n => { s with canvasHeight := n.toFloat32 }
  | .warnUnrecognized, .bool b => some { s with warnUnrecognized := b }
  | .warnUnrecognized, _ => none
  | .seed, .null => some { s with seed := none }
  | .seed, d => match number? d with
    | some (.natural n) => some { s with seed := some n }
    | _ => none

/-! ## 2. Files -/

/-- The settings of the members of an object.  `given` are the fields that came before; a field
that comes twice and a name that is no text spoil all, and any other name is passed over. -/
def ofMembers? (given : List Field) (s : Settings) :
    List (List Char × Document) → Option Settings
  | [] => some s
  | (key, d) :: rest => do
    let name ← Document.textOf? key
    match Field.all.find? (·.name == name) with
    | none => ofMembers? given s rest
    | some f => if f ∈ given then none else ofMembers? (f :: given) (← s.set? f d) rest

/-- The settings of a list of values by position. -/
def ofItems? (s : Settings) : List Field → List Document → Option Settings
  | _, [] => some s
  | [], _ :: _ => none
  | f :: fs, d :: ds => do ofItems? (← s.set? f d) fs ds

/-- The settings of the bytes of a file. -/
def ofBytes? (bytes : ByteArray) : Option Settings :=
  match Document.ofBytes? bytes.toList with
  | some (.object members) => ofMembers? [] standard members
  | some (.list items) => ofItems? standard Field.all items
  | _ => none

/-- The settings of a file that may be missing; the defaults where there are none. -/
def ofFile (bytes : Option ByteArray) : Settings := (bytes.bind ofBytes?).getD standard

end Settings
end StageScript

/-
# The texts of the workbench

What each side of the workbench shows as text: a list of labels in the order in which they are
painted.  A label may have a color of its own.  Every function here only reads the workbench.
-/
import StageScript.Workbench

namespace StageScript

/-- A text in the window, with its color if it has one of its own. -/
structure Label where
  text : String
  color : Option (UInt8 × UInt8 × UInt8)
  deriving DecidableEq, Repr

namespace Label

/-- A label in the color of the window. -/
def plain (text : String) : Label := ⟨text, none⟩

/-- A heading. -/
def strong (text : String) : Label := ⟨text, some (255, 255, 255)⟩

/-- A label that stays in the background. -/
def faint (text : String) : Label := ⟨text, some (160, 160, 160)⟩

/-- A label of a color. -/
def tinted (red green blue : UInt8) (text : String) : Label := ⟨text, some (red, green, blue)⟩

end Label

namespace Workbench

/-! ## 1. Status and tabs -/

/-- Whether the run is running, and for how long. -/
def statusLabel (b : Workbench) : Label :=
  if b.run.isRunning then
    let seconds := b.run.stage.scene.timers.clock.toSeconds
    .tinted 80 200 80 ("▶  running  " ++ Decimal.fixed 1 seconds ++ "s")
  else .faint "■  stopped"

/-- The name of a tab. -/
def tabName : Tab → String
  | .canvas => "Canvas"
  | .console => "Console"
  | .state => "State"
  | .script => "Script"
  | .assets => "Assets"
  | .help => "Help"

/-- The number of errors in the console. -/
def errorCount (b : Workbench) : Nat := (b.console.filter fun d => d.level == .error).length

/-- The caption of a tab; that of the console counts the errors in it. -/
def tabCaption (b : Workbench) (t : Tab) : String :=
  if t = .console ∧ b.errorCount ≠ 0 then tabName t ++ " (" ++ toString b.errorCount ++ ")"
  else tabName t

/-! ## 2. Console and state -/

/-- A line of the console. -/
def consoleLine (d : Diagnostic) : Label :=
  match d.level with
  | .info => .tinted 210 210 210 d.text
  | .warn => .tinted 220 180 60 d.text
  | .error => .tinted 220 80 80 d.text

/-- The lines of the console. -/
def consoleLabels (b : Workbench) : List Label :=
  if b.console.isEmpty then [.faint "Nothing logged."] else b.console.map consoleLine

/-- A number of an entity with one place, and a dash where there is none. -/
def numberCell (e : Entity) (prop : String) : Label :=
  .plain (match e.number prop with
    | .ok x => Decimal.fixed 1 x
    | .error _ => "–")

/-- What else there is to say about an entity. -/
def entityDetail : Entity → String
  | .box _ _ _ _ color rotation => color.text ++ "  " ++ Decimal.fixed 0 rotation ++ "°"
  | .image x y w h asset => ((Entity.image x y w h asset).assetLabel?).getD ""
  | .label _ _ text _ color _ => Text.quoted text ++ "  " ++ color.text

/-- A row of the table of entities. -/
def entityRow (name : String) (e : Entity) : List Label :=
  [.plain name, .tinted 180 140 255 e.kindName] ++ ["x", "y", "w", "h"].map (numberCell e) ++
    [.tinted 210 210 170 (entityDetail e)]

/-- The table of entities. -/
def entityLabels (es : Entities) : List Label :=
  if es.entries.isEmpty then [.faint "No entities."]
  else
    ["name", "kind", "x", "y", "w", "h", "detail"].map .strong ++
      es.entries.flatMap fun (name, e) => entityRow name e

/-- The table of variables, and behind it the keys that are held.  Without variables the keys
are not shown. -/
def variableLabels (vs : Variables) (keys : Keys) : List Label :=
  if vs.entries.isEmpty then [.faint "No variables."]
  else
    [.strong "variable", .strong "value"] ++
      (vs.entries.flatMap fun (name, x) =>
        [.plain name, .tinted 180 255 180 (Decimal.plain x)]) ++
      if keys.held.isEmpty then [] else [.faint ("keys: " ++ Text.quotedList keys.held)]

/-- The state of the run. -/
def stateLabels (b : Workbench) : List Label :=
  entityLabels b.run.stage.scene.entities ++
    variableLabels b.run.stage.scene.vars b.run.stage.scene.keys

/-! ## 3. Script, assets and help -/

/-- A row of the table of commands. -/
def statementRow (st : Statement) : List Label :=
  [.faint (toString st.line), .tinted 100 180 255 st.command.tag,
   .plain (if st.command.isPerFrame then "every frame" else "setup")]

/-- The row of a line that is no command. -/
def unrecognizedRow (u : Unrecognized) : List Label :=
  [.faint (toString u.line), .tinted 220 180 60 "ignored", .faint u.text]

/-- The commands of the text in the editor. -/
def scriptLabels (b : Workbench) : List Label :=
  let script := Script.ofText b.source
  ["line", "command", "runs"].map .strong ++ script.statements.flatMap statementRow ++
    script.unrecognized.flatMap unrecognizedRow

/-- The name under which a script uses an asset. -/
def assetReference (a : Asset) : String :=
  match a.kind with
  | .image => "\"" ++ a.name ++ ".image\""
  | .audio => "\"" ++ a.name ++ ".sound\""
  | .other => a.name

/-- A row of the table of assets. -/
def assetRow (a : Asset) : List Label :=
  [.plain (assetReference a), .faint a.mime, .faint (toString a.data.size ++ " B")]

/-- The table of assets. -/
def assetLabels (b : Workbench) : List Label :=
  if b.library.assets.isEmpty then
    [.faint "No assets. Drop .png/.jpg/.gif/.webp or .wav/.mp3/.ogg files in the assets directory."]
  else ["use as", "type", "size"].map .strong ++ b.library.assets.flatMap assetRow

/-- The forms of the language and what they do. -/
def reference : List (String × String) :=
  [("say \"Hello\"", "print a message to the console"),
   ("make it <color>", "colour for boxes and shapes declared after it"),
   ("make background <color>", "fill the canvas every frame"),
   ("draw circle at (x,y) radius N", "filled circle"),
   ("draw line from (x1,y1) to (x2,y2) width N", "stroked line"),
   ("play sound \"pop.sound\"", "play an uploaded sound"),
   ("let box = spawn x y w h", "box in the current colour"),
   ("let ufo = image \"ufo.image\" at (x,y) size w h", "uploaded image"),
   ("let t = text \"Hi\" at (x,y) size N colour c font \"f\"", "text label"),
   ("let n = <expr>", "number variable"),
   ("let roll = random from 1 to 6", "whole number in the range, ends included"),
   ("n = <expr>", "update a variable"),
   ("add n 1", "add to a variable"),
   ("box.x = box.x + 5", "set x, y, w, h, colour or text"),
   ("rotate box by 15 degrees", "turn a box about its centre"),
   ("on click <command>", "run on every canvas click (mouseX, mouseY)"),
   ("every 2 seconds then <command>", "run repeatedly"),
   ("if key \"ArrowUp\" down then <command>", "run every frame while the key is held")]

/-- The help. -/
def helpLabels : List Label :=
  (reference.flatMap fun (form, meaning) => [.tinted 100 180 255 form, .plain meaning]) ++
    [.faint ("Expressions: + - * / and parentheses over numbers, variables and entity.x/y/w/h. " ++
      "Lines starting with // are comments.")]

end Workbench
end StageScript

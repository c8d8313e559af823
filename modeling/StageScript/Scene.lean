/-
# The scene

Everything that a run changes, apart from its journal.  An action is carried out on a scene:
it yields another scene, notes for the journal in the order in which they arise, and a result.
An action looks up and evaluates all it needs before it changes anything, so an action that
fails leaves the scene as it was.

The strokes of circles and lines are kept in three lists.  Those of the setup (`backdrop`) are
painted in every frame; later ones (`overlay`) are painted once, by the next drawing.  When the
clock moves on, the overlay becomes `carried` and what was carried before is dropped, so a host
that never draws collects nothing.
-/
import StageScript.Expr.Evaluation
import StageScript.Generator
import StageScript.Keys
import StageScript.Timers

namespace StageScript

/-! ## 1. State -/

/-- What a host decides about a run. -/
structure RunConfig where
  /-- The active color at the start. -/
  defaultColor : String
  /-- The variables that take the place of a click. -/
  pointerX : String
  pointerY : String
  /-- The seed of the random numbers. -/
  seed : Option UInt64
  /-- The generators that take the place of a seed, one for every setup. -/
  entropy : Nat → Generator
  /-- Shorter periods of timers are raised to this one. -/
  minPeriod : Duration

namespace RunConfig

/-- What a host gets that decides nothing. -/
def standard (entropy : Nat → Generator) : RunConfig :=
  ⟨"#000000", "mouseX", "mouseY", none, entropy, .ofMillis 4⟩

/-- What a host gets that decides on a seed alone. -/
def seeded (seed : UInt64) : RunConfig :=
  { standard (fun _ => .ofSeed seed) with seed := some seed }

/-- The generator behind the `n`th setup.  A seed gives all setups the same one. -/
def generator (config : RunConfig) (n : Nat) : Generator :=
  match config.seed with
  | some seed => .ofSeed seed
  | none => config.entropy n

end RunConfig

/-- The state of a run. -/
structure Scene where
  config : RunConfig
  assets : Library
  entities : Entities
  vars : Variables
  timers : Timers
  /-- What a click carries out, in the order of registration. -/
  clicks : List Statement
  keys : Keys
  activeColor : Color
  background : Option Color
  /-- Strokes of the setup. -/
  backdrop : List Paint
  /-- Strokes since the clock last moved. -/
  overlay : List Paint
  /-- Strokes of the step before that. -/
  carried : List Paint
  /-- Sounds that wait to be played. -/
  sounds : List Asset
  generator : Generator
  inSetup : Bool

namespace Scene

/-- The scene before anything is carried out. -/
def initial (config : RunConfig) (generator : Generator) : Scene where
  config := config
  assets := .empty
  entities := .empty
  vars := .empty
  timers := .start
  clicks := []
  keys := .none
  activeColor := .resolve config.defaultColor
  background := none
  backdrop := []
  overlay := []
  carried := []
  sounds := []
  generator := generator
  inSetup := false

/-- Forgets all that was carried out, and takes another generator.  The assets stay, and the numbers
of timers go on. -/
def reset (s : Scene) (generator : Generator) : Scene :=
  { Scene.initial s.config generator with
    assets := s.assets
    timers := s.timers.clear
    inSetup := s.inSetup }

/-! ## 2. Drawing -/

/-- Adds a stroke. -/
def addStroke (s : Scene) (p : Paint) : Scene :=
  if s.inSetup then { s with backdrop := s.backdrop ++ [p] }
  else { s with overlay := s.overlay ++ [p] }

/-- The clock moves on: the overlay is carried, and what was carried is dropped. -/
def ageOverlay (s : Scene) : Scene := { s with carried := s.overlay, overlay := [] }

/-- What a drawing paints: the background, the strokes, and the entities above them. -/
def painted (s : Scene) (ready : Ready) : List Paint :=
  (s.background.map Paint.background).toList ++ s.backdrop ++ s.carried ++ s.overlay ++
    s.entities.paint ready

/-- The scene behind a drawing, which uses up the strokes that are painted once. -/
def drawn (s : Scene) : Scene := { s with carried := [], overlay := [] }

/-! ## 3. Looking up -/

/-- The name of the asset that a path means: without its ending, and without the folder. -/
def assetBase (use : AssetUse) (path : List Char) : List Char × Bool :=
  let suffix := use.suffix.toList
  let (stem, hasSuffix) :=
    if suffix.isSuffixOf path then (path.take (path.length - suffix.length), true)
    else (path, false)
  let folder := "assets/".toList
  (if folder.isPrefixOf stem then stem.drop folder.length else stem, hasSuffix)

/-- The asset that a path means, if it serves the use. -/
def findAsset (s : Scene) (use : AssetUse) (path : String) : Except RunError.Cause Asset :=
  let (base, hasSuffix) := assetBase use path.toList
  let base := String.ofList base
  if hasSuffix then
    match s.assets.find? base with
    | some a => if a.kind = use.kind then .ok a else .error (.assetAbsent use base)
    | none => .error (.assetAbsent use base)
  else .error (.wrongSuffix use base path)

/-- The value of an expression, with its reports. -/
def value (s : Scene) (line : Nat) (e : Expr) : Float × List Event :=
  let (x, reports) := e.evaluate s.entities s.vars line
  (x, reports.map .reported)

/-- The place that a point means. -/
def place (s : Scene) (line : Nat) (p : Point) : (Float × Float) × List Event :=
  let (x, notes) := s.value line p.x
  let (y, notes') := s.value line p.y
  ((x, y), notes ++ notes')

/-- The value of the right side of an assignment, with its reports. -/
def sourceValue (s : Scene) (line : Nat) (e : ExprSource) : Float × List Event :=
  let (x, reports) := e.evaluate s.entities s.vars line
  (x, reports.map .reported)

/-! ## 4. Actions -/

/-- What an action leaves behind. -/
structure Outcome where
  scene : Scene
  notes : List Event
  result : Except RunError.Cause (Option Float)

/-- An action that has no result of its own. -/
def Outcome.done (scene : Scene) (notes : List Event) : Outcome := ⟨scene, notes, .ok none⟩

/-- An action that failed.  The scene is the one it was given. -/
def Outcome.failed (scene : Scene) (notes : List Event) (c : RunError.Cause) : Outcome :=
  ⟨scene, notes, .error c⟩

/-- Puts an entity under a name. -/
def declareEntity (s : Scene) (name : String) (e : Entity) (notes : List Event) : Outcome :=
  .done { s with entities := s.entities.insert name e }
    (notes ++ if s.entities.contains name then [.redeclared name] else [])

/-- Carries out a declaration. -/
def declare (s : Scene) (line : Nat) (name : String) : Declaration → Outcome
  | .box x y w h =>
    let (x, n₁) := s.value line x
    let (y, n₂) := s.value line y
    let (w, n₃) := s.value line w
    let (h, n₄) := s.value line h
    s.declareEntity name (.box x y w h s.activeColor 0) (n₁ ++ n₂ ++ n₃ ++ n₄)
  | .image path position w h =>
    match s.findAsset .picture path with
    | .error c => .failed s [] c
    | .ok asset =>
      let ((x, y), n₁) := s.place line position
      let (w, n₂) := s.value line w
      let (h, n₃) := s.value line h
      s.declareEntity name (.image x y w h asset) (n₁ ++ n₂ ++ n₃)
  | .text text position size color font =>
    let ((x, y), n₁) := s.place line position
    let (size, n₂) := s.value line size
    s.declareEntity name (.label x y text size (.resolve color) font) (n₁ ++ n₂)
  | .random range =>
    let (x, generator) := s.generator.roll range
    .done { s with generator := generator, vars := s.vars.set name x } []
  | .number e =>
    let (x, notes) := s.value line e
    .done { s with vars := s.vars.set name x } notes

/-- The entity with another value of a property, the value as a message shows it, and the
reports of its evaluation. -/
def withProperty (s : Scene) (line : Nat) (e : Entity) (property : String) :
    PropertyValue → Except PropertyError Entity × String × List Event
  | .number source =>
    let (x, notes) := s.sourceValue line source
    (e.setNumber property x, source.text, notes)
  | .color token => (e.setColor (.resolve token), token, [])
  | .text text => (e.setText text, text, [])
  | .unknown _ => (.error .unknown, "", [])

/-- Carries out an assignment to a property. -/
def setProperty (s : Scene) (line : Nat) (entity property : String) (v : PropertyValue) :
    Outcome :=
  match s.entities.get? entity with
  | none => .failed s [] (.unknownEntity entity)
  | some e =>
    let (result, shown, notes) := s.withProperty line e property v
    match result with
    | .ok e => .done { s with entities := s.entities.replace entity e } notes
    | .error .unsupported => .failed s notes (.wrongValue entity property shown)
    | .error .unknown => .failed s notes (.unknownProperty property entity)

/-- Carries out an action. -/
def perform (s : Scene) (line : Nat) : Action → Outcome
  | .say text => .done s [.reported (.said text line)]
  | .setColor token => .done { s with activeColor := .resolve token } []
  | .setBackground token => .done { s with background := some (.resolve token) } []
  | .drawCircle center radius =>
    let ((cx, cy), n₁) := s.place line center
    let (r, n₂) := s.value line radius
    .done (s.addStroke (.circle cx cy r s.activeColor)) (n₁ ++ n₂)
  | .drawLine start finish width =>
    let ((x1, y1), n₁) := s.place line start
    let ((x2, y2), n₂) := s.place line finish
    let (w, n₃) := s.value line width
    .done (s.addStroke (.line x1 y1 x2 y2 w s.activeColor)) (n₁ ++ n₂ ++ n₃)
  | .playSound path =>
    match s.findAsset .sound path with
    | .error c => .failed s [] c
    | .ok asset => .done { s with sounds := s.sounds ++ [asset] } [.soundQueued asset.name]
  | .declare name declaration => s.declare line name declaration
  | .assign name source =>
    if s.vars.contains name then
      let (x, notes) := s.sourceValue line source
      .done { s with vars := s.vars.set name x } notes
    else .failed s [] (.unknownVariable name)
  | .setProperty entity property v => s.setProperty line entity property v
  | .add name amount =>
    match s.vars.get? name with
    | none => .failed s [] (.unknownVariable name)
    | some x => .done { s with vars := s.vars.set name (x + amount) } []
  | .random range =>
    let (x, generator) := s.generator.roll range
    ⟨{ s with generator := generator }, [], .ok (some x)⟩
  | .rotate entity degrees =>
    match s.entities.get? entity with
    | none => .failed s [] (.unknownEntity entity)
    | some e =>
      match e.rotate degrees with
      | .ok e => .done { s with entities := s.entities.replace entity e } []
      | .error _ => .failed s [] (.cannotRotate e.kindName entity)

end Scene
end StageScript

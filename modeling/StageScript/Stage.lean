/-
# Carrying out commands

A stage is a scene with its journal.  `exec` carries out one command on it: an action at once, a
click or a timer by registering the command behind it, a key by carrying out the command behind
it while the key is held.

A command either has a result or fails; `run` reports a failure and goes on.  The one thing that
ends everything is a time beyond the longest duration, and `Overflow` keeps the stage as it
stood then.
-/
import StageScript.Scene

namespace StageScript

/-- A scene and its journal. -/
structure Stage where
  scene : Scene
  journal : Journal

/-- A time went beyond the longest duration; the stage as it stood. -/
structure Overflow where
  stage : Stage

namespace Stage

/-- The stage before anything is carried out. -/
def initial (config : RunConfig) : Stage := ⟨.initial config (config.generator 0), .empty⟩

/-- Writes an event. -/
def log (s : Stage) (e : Event) : Stage := { s with journal := s.journal.record e }

/-- The same stage with another scene. -/
def withScene (s : Stage) (scene : Scene) : Stage := { s with scene := scene }

/-- The period of a timer: a positive number of seconds that is a time, raised to the shortest
period. -/
def period? (config : RunConfig) (seconds : Float) : Option Duration :=
  match Duration.ofSeconds? seconds with
  | none => none
  | some d => if d = .zero then none else some (d.max config.minPeriod)

/-- Carries out a command, which stands on the given line. -/
def exec (line : Nat) : Command → Stage →
    Except Overflow (Stage × Except RunError (Option Float))
  | .act a, s =>
    let s := s.log (.command line (Command.act a).tag)
    let o := s.scene.perform line a
    .ok (⟨o.scene, s.journal.recordAll o.notes⟩, o.result.mapError fun c => ⟨c, line⟩)
  | .on .click c, s =>
    let s := s.log (.command line (Command.on .click c).tag)
    let scene := { s.scene with clicks := s.scene.clicks ++ [⟨line, c⟩] }
    .ok ((s.withScene scene).log (.listenerRegistered line), .ok none)
  | .on (.every seconds) c, s =>
    let s := s.log (.command line (Command.on (.every seconds) c).tag)
    match period? s.scene.config seconds with
    | none => .ok (s, .error ⟨.timerPeriod seconds, line⟩)
    | some period =>
      match s.scene.timers.register period ⟨line, c⟩ with
      | .error timers => .error ⟨s.withScene { s.scene with timers := timers }⟩
      | .ok (id, timers) =>
        let scene := { s.scene with timers := timers }
        .ok ((s.withScene scene).log (.timerRegistered line id period), .ok none)
  | .on (.key key) c, s =>
    let s := s.log (.command line (Command.on (.key key) c).tag)
    if s.scene.keys.isDown key then exec line c s else .ok (s, .ok none)

/-- Carries out a statement, and reports its failure. -/
def run (s : Stage) (st : Statement) : Except Overflow Stage :=
  match exec st.line st.command s with
  | .error o => .error o
  | .ok (s, .ok _) => .ok s
  | .ok (s, .error e) => .ok (s.log (.reported (.ofError e)))

/-- Carries out statements in order. -/
def runAll : List Statement → Stage → Except Overflow Stage
  | [], s => .ok s
  | st :: sts, s =>
    match s.run st with
    | .error o => .error o
    | .ok s => runAll sts s

end Stage
end StageScript

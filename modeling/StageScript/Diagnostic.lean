/-
# Diagnostics and the journal

A run never fails as a whole.  What goes wrong, and what a script says, is reported: the report
waits as a diagnostic until the host takes it, and it leaves an event behind.

The journal holds both.  Diagnostics are taken out of it; events only accumulate, and their
texts are the log of the run.
-/
import StageScript.Command
import StageScript.Duration
import StageScript.RunError

namespace StageScript

/-! ## 1. Diagnostics -/

/-- How serious a diagnostic is. -/
inductive Level where
  | info
  | warn
  | error
  deriving DecidableEq, Repr

/-- A message to the person who wrote the script. -/
structure Diagnostic where
  level : Level
  message : String
  line : Option Nat
  code : Option ErrorCode
  deriving DecidableEq, Repr

namespace Diagnostic

/-- A message about no line in particular. -/
def plain (level : Level) (message : String) : Diagnostic := ⟨level, message, none, none⟩

/-- What a script says. -/
def said (text : String) (line : Nat) : Diagnostic := ⟨.info, text, some line, none⟩

/-- The report of a failure. -/
def ofError (e : RunError) : Diagnostic := ⟨.error, e.message, some e.line, some e.code⟩

/-- The diagnostic as it is shown.  A code is shown only with a line. -/
def text (d : Diagnostic) : String :=
  match d.code, d.line with
  | some code, some line => "[" ++ code.text ++ "] line " ++ toString line ++ ": " ++ d.message
  | none, some line => "line " ++ toString line ++ ": " ++ d.message
  | _, none => d.message

end Diagnostic

/-! ## 2. Events -/

/-- How much an event matters, from the least. -/
inductive Weight where
  | trace
  | debug
  | info
  | warn
  | error
  deriving DecidableEq, Repr

/-- The name of a weight. -/
def Weight.name : Weight → String
  | trace => "trace"
  | debug => "debug"
  | info => "info"
  | warn => "warn"
  | error => "error"

/-- Something that the log of a run mentions. -/
inductive Event where
  | unrecognized (line : Nat) (reason : SyntaxError)
  | command (line : Nat) (tag : String)
  | soundQueued (name : String)
  | redeclared (name : String)
  | listenerRegistered (line : Nat)
  | timerRegistered (line id : Nat) (period : Duration)
  | started (run statements perFrame : Nat)
  | stopped (run : Nat)
  | reported (d : Diagnostic)

namespace Event

/-- How much the event matters. -/
def weight : Event → Weight
  | command _ _ => .trace
  | reported d => match d.level with
    | .info => .info
    | .warn => .warn
    | .error => .error
  | _ => .debug

/-- The line of the log. -/
def text : Event → String
  | unrecognized line reason =>
    "line " ++ toString line ++ " not recognized: " ++ reason.text
  | command line tag => "line " ++ toString line ++ ": " ++ tag
  | soundQueued name => "queue sound `" ++ name ++ "`"
  | redeclared name => "entity `" ++ name ++ "` redeclared"
  | listenerRegistered line => "line " ++ toString line ++ ": click listener registered"
  | timerRegistered line id period =>
    "line " ++ toString line ++ ": timer " ++ toString id ++ " every " ++ period.text
  | started run statements perFrame =>
    "setup: run " ++ toString run ++ " (" ++ toString statements ++ " statements, " ++
      toString perFrame ++ " per-frame)"
  | stopped run => "stop: run " ++ toString run
  | reported d => d.text

end Event

/-- What the log mentions about the lines that are no command. -/
def Script.events (s : Script) : List Event :=
  s.unrecognized.map fun u => .unrecognized u.line u.reason

/-! ## 3. The journal -/

/-- The diagnostics that wait, and all events so far. -/
structure Journal where
  diagnostics : Array Diagnostic
  events : Array Event

namespace Journal

/-- The journal in which nothing is written. -/
def empty : Journal := ⟨#[], #[]⟩

/-- Writes an event; the diagnostic of a report waits from then on. -/
def record : Journal → Event → Journal
  | ⟨ds, es⟩, .reported d => ⟨ds.push d, es.push (.reported d)⟩
  | ⟨ds, es⟩, e => ⟨ds, es.push e⟩

/-- Writes several events in order. -/
def recordAll (j : Journal) (es : List Event) : Journal := es.foldl record j

/-- Reports a diagnostic. -/
def report (j : Journal) (d : Diagnostic) : Journal := j.record (.reported d)

/-- Takes out the diagnostics that wait. -/
def take (j : Journal) : List Diagnostic × Journal :=
  (j.diagnostics.toList, { j with diagnostics := #[] })

end Journal
end StageScript

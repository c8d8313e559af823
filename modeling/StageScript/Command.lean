/-
# Commands and scripts

A command is an action under any number of triggers: a click, a timer, a key that is held.
Actions do something once; a trigger says when the command behind it is carried out.

A script is the list of its commands with their lines.  Lines that are no command are kept
beside them, with the reason, and take no part in a run.
-/
import StageScript.Expr
import StageScript.SyntaxError

namespace StageScript

/-! ## 1. Parts of commands -/

/-- A point of the canvas. -/
structure Point where
  x : Expr
  y : Expr
  deriving Repr

/-- The right side of an assignment: its text, and the expression it is.  A text that is no
expression is kept as well, since it is reported when the assignment is carried out. -/
structure ExprSource where
  text : String
  parsed : Except SyntaxError Expr

/-- The bounds of a random number, in the order in which they are written. -/
structure RandomRange where
  first : Int64
  last : Int64
  deriving DecidableEq, Repr

/-- What a name is declared as. -/
inductive Declaration where
  | box (x y w h : Expr)
  | image (path : String) (position : Point) (w h : Expr)
  | text (text : String) (position : Point) (size : Expr) (color font : String)
  | random (range : RandomRange)
  | number (value : Expr)

/-- The right side of an assignment to a property. -/
inductive PropertyValue where
  | number (source : ExprSource)
  /-- The color as it is written. -/
  | color (token : String)
  | text (text : String)
  /-- The value of a property that no entity has. -/
  | unknown (text : String)

/-! ## 2. Commands -/

/-- What a command does. -/
inductive Action where
  | say (text : String)
  | setColor (token : String)
  | setBackground (token : String)
  | drawCircle (center : Point) (radius : Expr)
  | drawLine (start finish : Point) (width : Expr)
  | playSound (path : String)
  | declare (name : String) (value : Declaration)
  | assign (name : String) (source : ExprSource)
  | setProperty (entity property : String) (value : PropertyValue)
  | add (name : String) (amount : Float)
  | random (range : RandomRange)
  | rotate (entity : String) (degrees : Float)

/-- When a command is carried out. -/
inductive Trigger where
  | click
  | every (seconds : Float)
  /-- On every frame in which the key is held; its name is in lower case. -/
  | key (name : String)
  deriving Repr

/-- An action under any number of triggers. -/
inductive Command where
  | act (action : Action)
  | on (trigger : Trigger) (command : Command)

namespace Command

/-- A command that is carried out on every frame, and not once at the start. -/
def isPerFrame : Command → Bool
  | on (.key _) _ => true
  | _ => false

/-- The short name of a kind of command. -/
def tag : Command → String
  | act (.say _) => "say"
  | act (.setColor _) => "make-it"
  | act (.setBackground _) => "make-background"
  | act (.drawCircle _ _) => "draw-circle"
  | act (.drawLine _ _ _) => "draw-line"
  | act (.playSound _) => "play-sound"
  | act (.declare _ (.box _ _ _ _)) => "spawn"
  | act (.declare _ (.image _ _ _ _)) => "image-decl"
  | act (.declare _ (.text _ _ _ _ _)) => "text-decl"
  | act (.declare _ (.random _)) => "let-random"
  | act (.declare _ (.number _)) => "let"
  | act (.assign _ _) => "assign"
  | act (.setProperty _ _ _) => "property-assign"
  | act (.add _ _) => "add"
  | act (.random _) => "random"
  | act (.rotate _ _) => "rotate"
  | on .click _ => "on-click"
  | on (.every _) _ => "every"
  | on (.key _) _ => "key-guard"

end Command

/-! ## 3. Scripts -/

/-- A command and its line, counted from one.  A command that waits for a tick or a click keeps
the line of the statement that registered it. -/
structure Statement where
  line : Nat
  command : Command

/-- A line that is no command, without the blanks around it. -/
structure Unrecognized where
  line : Nat
  text : String
  reason : SyntaxError

/-- A script, both lists in the order of the lines. -/
structure Script where
  statements : List Statement
  unrecognized : List Unrecognized

namespace Script

/-- The script without a line. -/
def empty : Script := ⟨[], []⟩

/-- The statements that are carried out once, at the start of a run. -/
def setup (s : Script) : List Statement := s.statements.filter fun st => !st.command.isPerFrame

/-- The statements that are carried out on every frame. -/
def perFrame (s : Script) : List Statement := s.statements.filter fun st => st.command.isPerFrame

end Script
end StageScript

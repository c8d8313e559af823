/-
# Faults of a line

A line that is no command is refused for one reason, at one column.  The reason is a value;
its code and its message are computed from it.
-/
import StageScript.ErrorCode
import StageScript.Token

namespace StageScript
namespace SyntaxError

/-! ## 1. Reasons -/

/-- What a place in the line should have held. -/
inductive Expected where
  | command
  | itOrBackground
  | circleOrLine
  | expression
  | endOfLine
  | word (w : String)
  | identifier
  | textLiteral
  | color
  | number
  | value
  | mark (m : Mark)
  deriving DecidableEq, Repr

/-- The expectation as a message names it. -/
def Expected.describe : Expected → String
  | command => "a command"
  | itOrBackground => "`it` or `background`"
  | circleOrLine => "`circle` or `line`"
  | expression => "expression"
  | endOfLine => "end of line"
  | word w => "`" ++ w ++ "`"
  | identifier => "identifier"
  | textLiteral => "string literal"
  | color => "color"
  | number => "number"
  | value => "value"
  | mark m => m.name

/-- Why a line is refused. -/
inductive Cause where
  | unterminatedText
  /-- The byte behind a backslash starts no escape. -/
  | unknownEscape (byte : Nat)
  /-- No form of the language goes on with what was found. -/
  | unexpected (expected : Expected) (found : Option Token.Kind)
  /-- A form that has begun lacks a part. -/
  | missing (expected : Expected) (found : Option Token.Kind)
  | missingExpression
  | notWhole (value : Float)
  deriving Repr

namespace Cause

/-- The code of a reason.  A stray character has a code of its own where nothing in
particular was required. -/
def code : Cause → ErrorCode
  | unterminatedText => .unterminatedText
  | unknownEscape _ => .unknownEscape
  | unexpected _ (some (.stray _)) => .strayCharacter
  | unexpected _ _ => .unexpectedToken
  | missing _ _ => .missingToken
  | missingExpression => .missingToken
  | notWhole _ => .unexpectedToken

/-- The message of a reason. -/
def message : Cause → String
  | unterminatedText => "unterminated string literal"
  | unknownEscape byte =>
    "unknown escape sequence `\\" ++ String.singleton (Char.ofNat byte) ++ "`"
  | unexpected e found | missing e found =>
    "expected " ++ e.describe ++ ", found " ++ Token.describeFound found
  | missingExpression => "missing expression"
  | notWhole value => "expected whole number, found " ++ Decimal.plain value

theorem isLineFault_code (c : Cause) : c.code.isLineFault = true := by
  unfold code
  split <;> rfl

end Cause
end SyntaxError

/-! ## 2. Faults -/

/-- A reason and the place it concerns. -/
structure SyntaxError where
  cause : SyntaxError.Cause
  line : Nat
  column : Nat
  deriving Repr

namespace SyntaxError

/-- The code of the fault. -/
def code (e : SyntaxError) : ErrorCode := e.cause.code

/-- The message of the fault. -/
def message (e : SyntaxError) : String := e.cause.message

/-- The code, the place and the message in one line. -/
def text (e : SyntaxError) : String := e.code.atColumn e.line e.column e.message

end SyntaxError
end StageScript

/-
# Failures of a run

A command that cannot be carried out fails for one reason, on the line it stands on.  A reason
is a value; its code and its message are computed from it.
-/
import StageScript.Asset
import StageScript.SyntaxError

namespace StageScript

/-- What a command wants an asset for. -/
inductive AssetUse where
  | picture
  | sound
  deriving DecidableEq, Repr

namespace AssetUse

/-- The ending under which a script names the asset. -/
def suffix : AssetUse → String
  | picture => ".image"
  | sound => ".sound"

/-- The kind of asset that serves the use. -/
def kind : AssetUse → Asset.Kind
  | picture => .image
  | sound => .audio

/-- The asset as a message names it. -/
def noun : AssetUse → String
  | picture => "Image"
  | sound => "Sound"

end AssetUse

namespace RunError

/-- Why a command fails. -/
inductive Cause where
  | unknownEntity (name : String)
  | unknownVariable (name : String)
  /-- The path lacks the ending of its use; `base` is the path without the folder. -/
  | wrongSuffix (use : AssetUse) (base path : String)
  | assetAbsent (use : AssetUse) (base : String)
  /-- A term of an expression reads a property that its entity does not carry. -/
  | noNumber (entity prop : String)
  | wrongValue (entity prop value : String)
  | cannotRotate (kind entity : String)
  | unknownProperty (prop entity : String)
  | timerPeriod (seconds : Float)
  /-- The text of an expression is none. -/
  | malformed (text : String) (fault : SyntaxError.Cause)
  | notFinite (text : String)
  /-- A term of an expression has failed. -/
  | inExpression (text : String) (term : Cause)

namespace Cause

/-- The code of a reason. -/
def code : Cause → ErrorCode
  | unknownEntity _ => .unknownEntity
  | unknownVariable _ => .unknownVariable
  | wrongSuffix _ _ _ => .assetSuffix
  | assetAbsent _ _ => .assetAbsent
  | noNumber _ _ | wrongValue _ _ _ | cannotRotate _ _ => .wrongValueKind
  | unknownProperty _ _ => .unknownProperty
  | timerPeriod _ => .timerPeriod
  | malformed _ _ => .malformedArithmetic
  | notFinite _ => .notFinite
  | inExpression _ term => term.code

/-- The message of a reason. -/
def message : Cause → String
  | unknownEntity name => "Entity \"" ++ name ++ "\" not found"
  | unknownVariable name => "Variable \"" ++ name ++ "\" is not defined"
  | wrongSuffix use base path =>
    use.noun ++ " path must end with " ++ use.suffix ++ " extension. Use \"" ++ base ++
      use.suffix ++ "\" instead of \"" ++ path ++ "\""
  | assetAbsent use base =>
    use.noun ++ " \"" ++ base ++ use.suffix ++ "\" not found in asset panel. Upload it first."
  | noNumber entity prop => "Invalid property value for " ++ entity ++ "." ++ prop
  | wrongValue entity prop value =>
    "Invalid value for " ++ entity ++ "." ++ prop ++ ": " ++ value
  | cannotRotate kind entity =>
    "Cannot rotate " ++ kind ++ " \"" ++ entity ++ "\": only boxes rotate"
  | unknownProperty prop entity =>
    "Unknown property \"" ++ prop ++ "\" for entity \"" ++ entity ++ "\""
  | timerPeriod seconds =>
    "Timer period must be a positive number of seconds, got " ++ Decimal.plain seconds
  | malformed text fault => "Error evaluating \"" ++ text ++ "\": " ++ fault.message
  | notFinite text => "Expression \"" ++ text ++ "\" did not evaluate to a number"
  | inExpression text term => "Error evaluating \"" ++ text ++ "\": " ++ term.message

end Cause
end RunError

/-- A reason and the line it concerns. -/
structure RunError where
  cause : RunError.Cause
  line : Nat

namespace RunError

/-- The code of the failure. -/
def code (e : RunError) : ErrorCode := e.cause.code

/-- The message of the failure. -/
def message (e : RunError) : String := e.cause.message

end RunError
end StageScript

/-
# Error codes

Each failure has a code whose letter names the phase it belongs to: `L` for reading the
tokens of a line, `P` for the shape of a command, `R` for a reference to something absent, `T`
for a value of the wrong kind, `E` for arithmetic.  The first two phases describe a line that
never became a command.

The texts in which a code stands with its position are here too, because they need nothing but
the code, the position and the message.
-/

namespace StageScript

/-- What kind of failure a message reports. -/
inductive ErrorCode where
  | strayCharacter
  | unterminatedText
  | unknownEscape
  | unexpectedToken
  | missingToken
  | unknownEntity
  | unknownVariable
  | assetSuffix
  | assetAbsent
  | wrongValueKind
  | unknownProperty
  | timerPeriod
  | malformedArithmetic
  | notFinite
  deriving DecidableEq, Repr, Inhabited

namespace ErrorCode

/-- The code as it is printed. -/
def text : ErrorCode → String
  | strayCharacter => "L001"
  | unterminatedText => "L002"
  | unknownEscape => "L003"
  | unexpectedToken => "P001"
  | missingToken => "P002"
  | unknownEntity => "R001"
  | unknownVariable => "R002"
  | assetSuffix => "R003"
  | assetAbsent => "R004"
  | wrongValueKind => "T001"
  | unknownProperty => "T002"
  | timerPeriod => "T003"
  | malformedArithmetic => "E001"
  | notFinite => "E002"

/-- Every code, in the order of the phases. -/
def all : List ErrorCode :=
  [strayCharacter, unterminatedText, unknownEscape, unexpectedToken, missingToken,
   unknownEntity, unknownVariable, assetSuffix, assetAbsent, wrongValueKind, unknownProperty,
   timerPeriod, malformedArithmetic, notFinite]

/-- The code printed as `s`. -/
def ofText? (s : String) : Option ErrorCode := all.find? (·.text == s)

/-- The codes of a line that was never turned into a command. -/
def isLineFault : ErrorCode → Bool
  | strayCharacter | unterminatedText | unknownEscape | unexpectedToken | missingToken => true
  | _ => false

theorem mem_all (c : ErrorCode) : c ∈ all := by cases c <;> simp [all]

/-- **A code is known by its text.** -/
theorem ofText?_text (c : ErrorCode) : ofText? c.text = some c := by cases c <;> decide

/-- A message about a place in a line. -/
def atColumn (c : ErrorCode) (line column : Nat) (message : String) : String :=
  "[" ++ c.text ++ "] " ++ toString line ++ ":" ++ toString column ++ " — " ++ message

/-- A message about a line. -/
def atLine (c : ErrorCode) (line : Nat) (message : String) : String :=
  "[" ++ c.text ++ "] line " ++ toString line ++ " — " ++ message

end ErrorCode
end StageScript

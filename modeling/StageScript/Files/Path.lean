/-
# Paths

A path is the list of the texts between its slashes, **the last one first**.  So the last name
is at hand, and the paths above a path are the tails of its list.

The text of a path is never cleaned: an empty part and a single dot name nothing, but they ask
that a folder stands before them, and two dots are followed only after the name before them has
been found.
-/

namespace StageScript

/-- Why a path leads nowhere, or nothing can be put there. -/
inductive FileError where
  | absent
  | taken
  | notFolder
  | isFolder
  | nameTooLong
  | nulInPath
  deriving DecidableEq, Repr

/-- The text of the system. -/
def FileError.text : FileError → String
  | absent => "No such file or directory (os error 2)"
  | taken => "File exists (os error 17)"
  | notFolder => "Not a directory (os error 20)"
  | isFolder => "Is a directory (os error 21)"
  | nameTooLong => "File name too long (os error 36)"
  | nulInPath => "file name contained an unexpected NUL byte"

/-- A path, by its parts from the last one back. -/
structure Path where
  parts : List String
  deriving DecidableEq, Repr

namespace Path

/-! ## 1. Parts -/

/-- The texts between the slashes of a text. -/
def spans : List Char → List (List Char)
  | [] => [[]]
  | c :: cs =>
    if c = '/' then [] :: spans cs
    else match spans cs with
      | p :: ps => (c :: p) :: ps
      | [] => [[c]]

/-- The path of a text. -/
def ofText (text : String) : Path := ⟨((spans text.toList).map String.ofList).reverse⟩

/-- The bytes of the text of a path. -/
def byteLength (p : Path) : Nat := (p.parts.foldl (fun n part => n + part.utf8ByteSize + 1) 0) - 1

/-- A part that names nothing. -/
def isIdle (part : String) : Bool := part == "" || part == "."

/-! ## 2. Faults of the text -/

/-- The bytes at which a path is too long. -/
def lengthLimit : Nat := 4096

/-- The greatest number of bytes of a name. -/
def nameLimit : Nat := 255

/-- What is wrong with the text of a path, whatever the files are. -/
def fault? (p : Path) : Option FileError :=
  if p.parts.any (·.toList.contains '\x00') then some .nulInPath
  else if p.parts.all (· == "") && p.parts.length ≤ 1 then some .absent
  else if lengthLimit ≤ p.byteLength then some .nameTooLong
  else none

/-! ## 3. The paths above -/

/-- A path and those above it, given its parts from the last one back.  Parts that name nothing
do not count, but for a dot that is the first one of all. -/
def ancestorsOf : List String → List Path
  | [] => []
  | part :: above =>
    if part = "" ∨ (part = "." ∧ above ≠ []) then ancestorsOf above
    else ⟨part :: above⟩ :: ancestorsOf above

/-- The paths above a path, the longest first. -/
def above (p : Path) : List Path := (ancestorsOf p.parts).tail

/-- The last part of a path, whatever slashes are behind it, and the parts before it.  A path of
slashes has none. -/
def last? (p : Path) : Option (String × List String) :=
  match p.parts.dropWhile (· == "") with
  | [] => none
  | name :: before => some (name, before)

/-- The path ends in a slash. -/
def endsInSlash (p : Path) : Bool := p.parts.head? == some ""

end Path
end StageScript

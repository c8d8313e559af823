/-
# Assets

A picture or a sound that a script may use, under a name.  A library keeps its assets in the
order in which their names first came, and holds one asset for a name: a later one replaces
the earlier at its place.
-/
import StageScript.Text.Lower

namespace StageScript

/-- A named file. -/
structure Asset where
  name : String
  mime : String
  data : ByteArray

namespace Asset

/-- What an asset can be used for. -/
inductive Kind where
  | image
  | audio
  | other
  deriving DecidableEq, Repr

/-- The kind that a media type belongs to. -/
def Kind.ofMime (mime : String) : Kind :=
  if "image/".toList.isPrefixOf mime.toList then image
  else if "audio/".toList.isPrefixOf mime.toList then audio
  else other

/-- What the asset can be used for. -/
def kind (a : Asset) : Kind := .ofMime a.mime

/-- The media type of a file with a given extension, whose case does not matter. -/
def mimeOfExtension? (ext : String) : Option String :=
  match String.ofList (Text.lowerAscii ext.toList) with
  | "png" => some "image/png"
  | "jpg" | "jpeg" => some "image/jpeg"
  | "gif" => some "image/gif"
  | "webp" => some "image/webp"
  | "wav" => some "audio/wav"
  | "mp3" => some "audio/mpeg"
  | "ogg" => some "audio/ogg"
  | "flac" => some "audio/flac"
  | _ => none

/-- A file name cut at its last dot.  A name whose only dot is its first character has no
extension, like a name without a dot. -/
def splitName (name : List Char) : List Char × Option (List Char) :=
  let after := (name.reverse.takeWhile (· != '.')).reverse
  let before := name.take (name.length - after.length - 1)
  if after.length = name.length || before.isEmpty then (name, none) else (before, some after)

/-- The asset of a file; nothing if the extension is of no use here. -/
def ofFile? (fileName : String) (data : ByteArray) : Option Asset :=
  match splitName fileName.toList with
  | (stem, some ext) =>
    (mimeOfExtension? (String.ofList ext)).map fun mime => ⟨String.ofList stem, mime, data⟩
  | (_, none) => none

end Asset

/-! ## 2. Libraries -/

/-- Assets by name, in the order in which the names came. -/
structure Library where
  assets : List Asset

namespace Library

/-- The library without an asset. -/
def empty : Library := ⟨[]⟩

/-- Puts an asset at the place of the one with its name, or behind all others. -/
def insert (l : Library) (a : Asset) : Library :=
  if l.assets.any (·.name == a.name) then
    ⟨l.assets.map fun b => if b.name == a.name then a else b⟩
  else ⟨l.assets ++ [a]⟩

/-- The asset of a name. -/
def find? (l : Library) (name : String) : Option Asset := l.assets.find? (·.name == name)

/-- Puts several assets, one after the other. -/
def insertAll (l : Library) (as : List Asset) : Library := as.foldl insert l

/-- The assets among the files of a folder, in the order of the file names. -/
def assetsOfFiles (files : List (String × ByteArray)) : List Asset :=
  (files.mergeSort fun f g => f.1 ≤ g.1).filterMap fun f => Asset.ofFile? f.1 f.2

/-- Adds the assets among the files of a folder, and counts the files that were used. -/
def load (l : Library) (files : List (String × ByteArray)) : Library × Nat :=
  let found := assetsOfFiles files
  (l.insertAll found, found.length)

end Library
end StageScript

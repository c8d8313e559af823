/-
# Files

The folder that the host works in, as a tree.  A path is followed part by part, and every part
asks that a folder has been reached: a dot behind a file leads nowhere, and two dots lead back
only from a folder that is there.  Two dots in the outermost folder stay in it.

Reading yields the content or nothing.  Writing and making folders fail for one of the reasons
of `FileError`, whose texts are those of the system.
-/
import StageScript.Files.Path

namespace StageScript

/-- What is found at a place. -/
inductive FileNode where
  | file (data : ByteArray)
  | folder (entries : List (String × FileNode))

/-- The entries of the folder; the folder itself is always there. -/
structure Files where
  entries : List (String × FileNode)

/-- The names that lead to a place and what is found at each of them, the last one first. -/
abbrev Way := List (String × FileNode)

namespace Files

/-- The empty folder. -/
def empty : Files := ⟨[]⟩

/-! ## 1. Ways -/

/-- What is found at the end of a way. -/
def found (fs : Files) : Way → FileNode
  | [] => .folder fs.entries
  | (_, n) :: _ => n

/-- One part of a path, from the end of a way on. -/
def step (fs : Files) (way : Way) (part : String) : Except FileError Way :=
  match fs.found way with
  | .file _ => .error .notFolder
  | .folder entries =>
    if Path.isIdle part then .ok way
    else if part = ".." then .ok way.tail
    else if Path.nameLimit < part.utf8ByteSize then .error .nameTooLong
    else match entries.lookup part with
      | some n => .ok ((part, n) :: way)
      | none => .error .absent

/-- Follows parts from the first one on. -/
def follow (fs : Files) (parts : List String) : Except FileError Way := parts.foldlM fs.step []

/-- The way of a path. -/
def way (fs : Files) (path : String) : Except FileError Way :=
  let p := Path.ofText path
  match p.fault? with
  | some e => .error e
  | none => fs.follow p.parts.reverse

/-! ## 2. Reading -/

/-- The content of a file. -/
def read? (fs : Files) (path : String) : Option ByteArray :=
  match (fs.way path).map fs.found with
  | .ok (.file data) => some data
  | _ => none

/-- The text of a file, if it is one. -/
def readText? (fs : Files) (path : String) : Option String :=
  (fs.read? path).bind String.fromUTF8?

/-- The names and contents of the files of a folder. -/
def list? (fs : Files) (path : String) : Option (List (String × ByteArray)) :=
  match (fs.way path).map fs.found with
  | .ok (.folder entries) =>
    some (entries.filterMap fun (name, n) =>
      match n with
      | .file data => some (name, data)
      | .folder _ => none)
  | _ => none

/-! ## 3. Changes -/

/-- Entries with one of them set. -/
def setEntry (name : String) (n : FileNode) : List (String × FileNode) → List (String × FileNode)
  | [] => [(name, n)]
  | e :: es => if e.1 = name then (name, n) :: es else e :: setEntry name n es

/-- A folder with an entry set. -/
def FileNode.set (name : String) (n : FileNode) : FileNode → FileNode
  | .folder entries => .folder (setEntry name n entries)
  | .file data => .file data

/-- The files after the end of a way has become `n`. -/
def replace (fs : Files) (n : FileNode) : Way → Files
  | [] => match n with
    | .folder entries => ⟨entries⟩
    | .file _ => fs
  | (name, _) :: way => fs.replace (FileNode.set name n (fs.found way)) way

/-- Puts something into the folder at the end of a way. -/
def put (fs : Files) (way : Way) (name : String) (n : FileNode) : Files :=
  fs.replace (FileNode.set name n (fs.found way)) way

/-- The way to the folder in which the last part of a path stands, and that part.  A path of
slashes has no last part. -/
def target (fs : Files) (p : Path) : Except FileError (Option (Way × String)) :=
  match p.fault? with
  | some e => .error e
  | none =>
    match p.last? with
    | none => .ok none
    | some (name, before) => do
      let way ← fs.follow before.reverse
      match fs.found way with
      | .file _ => .error .notFolder
      | .folder _ => .ok (some (way, name))

/-! ## 4. Folders -/

/-- Makes one folder in a folder that is there. -/
def makeFolder (fs : Files) (p : Path) : Except FileError Files := do
  match ← fs.target p with
  | none => .error .taken
  | some (way, name) =>
    match fs.step way name with
    | .ok _ => .error .taken
    | .error .absent => .ok (fs.put way name (.folder []))
    | .error e => .error e

/-- A folder is found at a path. -/
def isFolder (fs : Files) (p : Path) : Bool :=
  match p.fault?, (fs.follow p.parts.reverse).map fs.found with
  | none, .ok (.folder _) => true
  | _, _ => false

/-- Makes one folder, unless it is there. -/
def needFolder (fs : Files) (p : Path) : Except FileError Files :=
  match fs.makeFolder p with
  | .error .taken => if fs.isFolder p then .ok fs else .error .taken
  | result => result

/-- Makes the first one of a list of folders, each in the one behind it in the list.  What was
made before a failure stays. -/
def needFolders (fs : Files) : List Path → Files × Option FileError
  | [] => (fs, none)
  | p :: above =>
    match fs.needFolder p with
    | .ok fs => (fs, none)
    | .error .absent =>
      match fs.needFolders above with
      | (fs, none) =>
        match fs.needFolder p with
        | .ok fs => (fs, none)
        | .error e => (fs, some e)
      | failed => failed
    | .error e => (fs, some e)

/-- Makes a folder and those that lead to it. -/
def makeFolders (fs : Files) (path : String) : Files × Option FileError :=
  let p := Path.ofText path
  fs.needFolders (p :: p.above)

/-! ## 5. Writing -/

/-- Writes a file, over one that is there. -/
def write (fs : Files) (path : String) (data : ByteArray) : Except FileError Files := do
  let p := Path.ofText path
  match ← fs.target p with
  | none => .error .isFolder
  | some (way, name) =>
    if p.endsInSlash then .error .isFolder
    else match fs.step way name with
      | .error .absent => .ok (fs.put way name (.file data))
      | .error e => .error e
      | .ok next =>
        match fs.found next with
        | .folder _ => .error .isFolder
        | .file _ => .ok (fs.put way name (.file data))

/-- Writes a file, and first makes the folders that lead to it.  They stay even if the file
cannot be written. -/
def save (fs : Files) (path : String) (data : ByteArray) : Files × Option FileError :=
  match fs.needFolders (Path.ofText path).above with
  | (fs, none) =>
    match fs.write path data with
    | .ok fs => (fs, none)
    | .error e => (fs, some e)
  | failed => failed

end Files
end StageScript

/-
# Textures

The pictures of a library are decoded beside the frames of the window.  A request starts a job;
a job ends at any time and puts its result behind those of the others; a poll takes the results
in that order.  A picture is ready once its result has been taken.

A result carries only a name.  It is taken if that name is still pending, and dropped
otherwise; a rebuild forgets all textures and everything that is pending, and requests the
pictures of the new library, while the jobs that are running go on.
-/
import StageScript.Paint

namespace StageScript

/-- A picture that is being decoded. -/
structure DecodeJob where
  name : String
  data : ByteArray

/-- The textures of pictures; `τ` is what a picture decodes to. -/
structure Textures (τ : Type) where
  /-- The textures that are ready, by name. -/
  ready : List (String × τ)
  /-- The names that have been requested and not been taken. -/
  pending : List String
  /-- The jobs that have not ended. -/
  jobs : List DecodeJob
  /-- The results that have not been taken, the oldest first. -/
  results : List (String × Option τ)

namespace Textures

variable {τ : Type}

/-- No textures, and none under way. -/
def empty : Textures τ := ⟨[], [], [], []⟩

/-- The texture of a name. -/
def get? (t : Textures τ) (name : String) : Option τ :=
  (t.ready.find? (·.1 == name)).map Prod.snd

/-- The pictures that can be painted. -/
def isReady (t : Textures τ) : Ready := fun a => (t.get? a.name).isSome

/-- Starts to decode a picture, unless it is ready or pending. -/
def request (t : Textures τ) (a : Asset) : Textures τ :=
  if (t.get? a.name).isSome || t.pending.contains a.name then t
  else { t with pending := t.pending ++ [a.name], jobs := t.jobs ++ [⟨a.name, a.data⟩] }

/-- Forgets every texture and starts to decode the pictures of a library. -/
def rebuild (t : Textures τ) (l : Library) : Textures τ :=
  (l.assets.filter fun a => a.kind == .image).foldl request { t with ready := [], pending := [] }

/-- The job at a place among the running ones ends. -/
def finish (decode : ByteArray → Option τ) (t : Textures τ) (i : Nat) : Textures τ :=
  match t.jobs[i]? with
  | none => t
  | some job =>
    { t with jobs := t.jobs.eraseIdx i, results := t.results ++ [(job.name, decode job.data)] }

/-- Takes one result. -/
def take (t : Textures τ) (result : String × Option τ) : Textures τ :=
  if t.pending.contains result.1 then
    { t with
      pending := t.pending.filter (· != result.1)
      ready := match result.2 with
        | some x => (result.1, x) :: t.ready
        | none => t.ready }
  else t

/-- Takes all results there are. -/
def poll (t : Textures τ) : Textures τ := t.results.foldl take { t with results := [] }

/-- Lets every job end, in the order in which they began, and takes their results. -/
def settle (decode : ByteArray → Option τ) (t : Textures τ) : Textures τ :=
  (t.jobs.foldl (fun t _ => finish decode t 0) t).poll

end Textures

/-! ## 2. Pictures -/

/-- The content of a picture file that can be shown. -/
structure Picture where
  data : ByteArray

/-- The bytes with which a picture file begins. -/
def Picture.signature : List UInt8 := [0x89, 0x50, 0x4e, 0x47]

/-- The picture of a file; nothing for a file that is none. -/
def Picture.ofBytes? (data : ByteArray) : Option Picture :=
  if (data.toList.take 4) == signature then some ⟨data⟩ else none

end StageScript

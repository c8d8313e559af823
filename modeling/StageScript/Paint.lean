/-
# Painting

What a run paints is a list of strokes in canvas units, with the origin at the top left.  A
surface is whoever paints them; the only question it is asked is which pictures are ready, and
a picture that is not is left out.

A `DrawList` is a surface that records.  It keeps the assets of its pictures aside, one for a
name, so that the list can be painted again later, when other pictures may be ready.
-/
import StageScript.Asset
import StageScript.Color

namespace StageScript

/-- One stroke on a surface. -/
inductive Paint where
  | background (color : Color)
  /-- The rotation is in degrees about the center. -/
  | rect (x y w h rotation : Float) (color : Color)
  | circle (cx cy radius : Float) (color : Color)
  | line (x1 y1 x2 y2 width : Float) (color : Color)
  | image (asset : Asset) (x y w h : Float)
  | text (text : String) (x y size : Float) (font : String) (color : Color)

/-- Which pictures a surface can paint. -/
abbrev Ready := Asset → Bool

/-- The surface that can paint every picture. -/
def Ready.always : Ready := fun _ => true

/-! ## 1. Recorded strokes -/

/-- A stroke in a recording, where a picture is known by its name. -/
inductive DrawCommand where
  | background (color : Color)
  | rect (x y w h rotation : Float) (color : Color)
  | circle (cx cy radius : Float) (color : Color)
  | line (x1 y1 x2 y2 width : Float) (color : Color)
  | image (name : String) (x y w h : Float)
  | text (text : String) (x y size : Float) (font : String) (color : Color)

/-- A stroke as it is recorded. -/
def Paint.recorded : Paint → DrawCommand
  | background c => .background c
  | rect x y w h r c => .rect x y w h r c
  | circle cx cy r c => .circle cx cy r c
  | line x1 y1 x2 y2 w c => .line x1 y1 x2 y2 w c
  | image a x y w h => .image a.name x y w h
  | text t x y s f c => .text t x y s f c

/-- A surface that records. -/
structure DrawList where
  commands : List DrawCommand
  /-- The assets of the recorded pictures, the first one of each name. -/
  images : List Asset
  /-- The names of pictures that are not ready. -/
  pending : List String

namespace DrawList

/-- The recording without a stroke. -/
def empty : DrawList := ⟨[], [], []⟩

/-- The pictures that the recording surface can take. -/
def ready (l : DrawList) : Ready := fun a => !l.pending.contains a.name

/-- Says that the picture of a name is not ready. -/
def markPending (l : DrawList) (name : String) : DrawList :=
  if l.pending.contains name then l else { l with pending := l.pending ++ [name] }

/-- Forgets what was recorded, and keeps what is pending. -/
def clear (l : DrawList) : DrawList := { l with commands := [], images := [] }

/-- The assets kept aside once a stroke has been recorded. -/
def keep (images : List Asset) : Paint → List Asset
  | .image a _ _ _ _ => if images.any (·.name == a.name) then images else images ++ [a]
  | _ => images

/-- Records a stroke. -/
def paint (l : DrawList) (p : Paint) : DrawList :=
  { l with commands := l.commands ++ [p.recorded], images := keep l.images p }

/-- Records strokes in order. -/
def paintAll (l : DrawList) (ps : List Paint) : DrawList := ps.foldl paint l

/-- The stroke of a recorded one, if its picture is known and ready. -/
def replayOne? (images : List Asset) (ready : Ready) : DrawCommand → Option Paint
  | .background c => some (.background c)
  | .rect x y w h r c => some (.rect x y w h r c)
  | .circle cx cy r c => some (.circle cx cy r c)
  | .line x1 y1 x2 y2 w c => some (.line x1 y1 x2 y2 w c)
  | .image name x y w h =>
    match images.find? (·.name == name) with
    | some a => if ready a then some (.image a x y w h) else none
    | none => none
  | .text t x y s f c => some (.text t x y s f c)

/-- What painting the recording on a surface paints. -/
def replay (l : DrawList) (ready : Ready) : List Paint :=
  l.commands.filterMap (replayOne? l.images ready)

end DrawList
end StageScript

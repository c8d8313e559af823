/-
# Entities

A named object on the canvas: a box, a picture or a label.  All of them have a place; a box
and a picture have a size, a box and a label a color, and only a box turns.
-/
import StageScript.Paint

namespace StageScript

/-- An object on the canvas. -/
inductive Entity where
  /-- The rotation is in degrees and adds up. -/
  | box (x y w h : Float) (color : Color) (rotation : Float)
  | image (x y w h : Float) (asset : Asset)
  | label (x y : Float) (text : String) (size : Float) (color : Color) (font : String)

/-- Why a property was refused. -/
inductive PropertyError where
  /-- A property of other entities, but not of this kind. -/
  | unsupported
  /-- A property of no entity. -/
  | unknown
  deriving DecidableEq, Repr

namespace Entity

/-! ## 1. Properties -/

/-- The properties that hold a number. -/
inductive Slot where
  | x
  | y
  | w
  | h
  deriving DecidableEq, Repr

/-- The slot of a property's name. -/
def Slot.ofName? : String → Option Slot
  | "x" => some x
  | "y" => some y
  | "w" => some w
  | "h" => some h
  | _ => none

/-- A name that an expression may read behind an entity. -/
def isNumericProperty (prop : String) : Bool := (Slot.ofName? prop).isSome

/-- The number in a slot, if the entity has the slot. -/
def slot? : Entity → Slot → Option Float
  | box x _ _ _ _ _, .x | image x _ _ _ _, .x | label x _ _ _ _ _, .x => some x
  | box _ y _ _ _ _, .y | image _ y _ _ _, .y | label _ y _ _ _ _, .y => some y
  | box _ _ w _ _ _, .w | image _ _ w _ _, .w => some w
  | box _ _ _ h _ _, .h | image _ _ _ h _, .h => some h
  | label _ _ _ _ _ _, .w | label _ _ _ _ _ _, .h => none

/-- The entity with another number in a slot, if it has the slot. -/
def setSlot? (v : Float) : Entity → Slot → Option Entity
  | box _ y w h c r, .x => some (box v y w h c r)
  | box x _ w h c r, .y => some (box x v w h c r)
  | box x y _ h c r, .w => some (box x y v h c r)
  | box x y w _ c r, .h => some (box x y w v c r)
  | image _ y w h a, .x => some (image v y w h a)
  | image x _ w h a, .y => some (image x v w h a)
  | image x y _ h a, .w => some (image x y v h a)
  | image x y w _ a, .h => some (image x y w v a)
  | label _ y t s c f, .x => some (label v y t s c f)
  | label x _ t s c f, .y => some (label x v t s c f)
  | label _ _ _ _ _ _, .w | label _ _ _ _ _ _, .h => none

/-- Reads a number. -/
def number (e : Entity) (prop : String) : Except PropertyError Float :=
  match Slot.ofName? prop with
  | none => .error .unknown
  | some s => match e.slot? s with
    | some v => .ok v
    | none => .error .unsupported

/-- Writes a number. -/
def setNumber (e : Entity) (prop : String) (v : Float) : Except PropertyError Entity :=
  match Slot.ofName? prop with
  | none => .error .unknown
  | some s => match e.setSlot? v s with
    | some e => .ok e
    | none => .error .unsupported

/-- Gives another color; a picture has none. -/
def setColor (c : Color) : Entity → Except PropertyError Entity
  | box x y w h _ r => .ok (box x y w h c r)
  | label x y t s _ f => .ok (label x y t s c f)
  | image _ _ _ _ _ => .error .unsupported

/-- Gives another text; only a label has one. -/
def setText (t : String) : Entity → Except PropertyError Entity
  | label x y _ s c f => .ok (label x y t s c f)
  | _ => .error .unsupported

/-- Turns a box further. -/
def rotate (degrees : Float) : Entity → Except PropertyError Entity
  | box x y w h c r => .ok (box x y w h c (r + degrees))
  | _ => .error .unsupported

/-! ## 2. Views -/

/-- The name of the kind. -/
def kindName : Entity → String
  | box _ _ _ _ _ _ => "box"
  | image _ _ _ _ _ => "image"
  | label _ _ _ _ _ _ => "text"

/-- The name under which a script uses the picture of an entity. -/
def assetLabel? : Entity → Option String
  | image _ _ _ _ a => some (a.name ++ ".image")
  | _ => none

/-- The place of an entity. -/
def position : Entity → Float × Float
  | box x y _ _ _ _ | image x y _ _ _ | label x y _ _ _ _ => (x, y)

/-- The degrees that a box is turned. -/
def rotation? : Entity → Option Float
  | box _ _ _ _ _ r => some r
  | _ => none

/-- What an entity paints; a picture that is not ready paints nothing. -/
def paint (ready : Ready) : Entity → List Paint
  | box x y w h c r => [.rect x y w h r c]
  | image x y w h a => if ready a then [.image a x y w h] else []
  | label x y t s c f => [.text t x y s f c]

end Entity
end StageScript

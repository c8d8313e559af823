/-
# The canvas as shapes

A surface maps canvas units to the points of a window and turns strokes into filled shapes.
Points are numbers of 32 bits, and every step of the mapping is taken in them: a coordinate is
narrowed first, then scaled, then moved.

A stroke whose color denotes no channels, or whose picture has no texture, makes no shape.
-/
import StageScript.Paint

namespace StageScript

/-! ## 1. Shapes -/

/-- A point of the window. -/
structure Spot where
  x : Float32
  y : Float32

/-- A rectangle of the window. -/
structure Frame where
  min : Spot
  max : Spot

namespace Frame

/-- The rectangle of a size at a corner. -/
def ofSize (min : Spot) (w h : Float32) : Frame := ⟨min, ⟨min.x + w, min.y + h⟩⟩

end Frame

/-- A filled shape.  The channels of its color are multiplied by the alpha. -/
inductive Shape where
  | rect (color : Color.Rgba) (frame : Frame)
  | polygon (color : Color.Rgba) (corners : List Spot)
  | circle (color : Color.Rgba) (center : Spot) (radius : Float32)
  | line (color : Color.Rgba) (start finish : Spot) (width : Float32)
  /-- The anchor is the left end of the bottom of the text. -/
  | text (color : Color.Rgba) (text : String) (anchor : Spot) (size : Float32) (monospace : Bool)
  | image (name : String) (frame : Frame)

/-! ## 2. Colors -/

/-- A channel multiplied by an alpha, rounded to the nearest byte. -/
def premultiplied (alpha channel : UInt8) : UInt8 :=
  (channel.toNat.toFloat32 * (alpha.toNat.toFloat32 / 255) + 0.5).toUInt8

/-- A color with its channels multiplied by its alpha.  What is fully transparent is black. -/
def Color.Rgba.premultiply (c : Color.Rgba) : Color.Rgba :=
  if c.alpha = 0 then ⟨0, 0, 0, 0⟩
  else if c.alpha = 255 then c
  else ⟨premultiplied c.alpha c.red, premultiplied c.alpha c.green, premultiplied c.alpha c.blue,
    c.alpha⟩

/-- The color of a shape, if the color denotes channels. -/
def Color.fill? (c : Color) : Option Color.Rgba := c.toRgba?.map Color.Rgba.premultiply

/-! ## 3. Surfaces -/

/-- Where the canvas lies in the window, and the points of a canvas unit. -/
structure Surface where
  frame : Frame
  scale : Float32

namespace Surface

/-- A length in points. -/
def length (s : Surface) (v : Float) : Float32 := v.toFloat32 * s.scale

/-- A place in the window. -/
def spot (s : Surface) (x y : Float) : Spot :=
  ⟨s.frame.min.x + x.toFloat32 * s.scale, s.frame.min.y + y.toFloat32 * s.scale⟩

/-- A rectangle in the window. -/
def area (s : Surface) (x y w h : Float) : Frame :=
  .ofSize (s.spot x y) (s.length w) (s.length h)

/-- The number π as a double. -/
def pi : Float := 3.141592653589793

/-- The corners of a rectangle turned about its center; positive degrees turn clockwise. -/
def turned (s : Surface) (x y w h rotation : Float) : List Spot :=
  let cx := x + w / 2
  let cy := y + h / 2
  let angle := rotation * (pi / 180)
  let sin := angle.sin
  let cos := angle.cos
  [(-w / 2, -h / 2), (w / 2, -h / 2), (w / 2, h / 2), (-w / 2, h / 2)].map fun (dx, dy) =>
    s.spot (cx + dx * cos - dy * sin) (cy + dx * sin + dy * cos)

/-- A coordinate of a text, which lies on a grid of 64 lines a point. -/
def onTextGrid (v : Float32) : Float32 := (v * 64).round / 64

/-- The size of a text in points; at least one. -/
def textSize (s : Surface) (size : Float) : Float32 :=
  let v := s.length size
  if v > 1 then v else 1

/-- The fonts that are shown with characters of one width. -/
def monospaceFonts : List String := ["monospace", "mono", "courier", "courier new", "consolas"]

/-- A font with characters of one width; the case of its name does not matter. -/
def isMonospace (font : String) : Bool :=
  monospaceFonts.contains (String.ofList (Text.lowerAscii font.toList))

/-- The shape of a stroke. -/
def shape? (s : Surface) (ready : Ready) : Paint → Option Shape
  | .background c => c.fill?.map fun c => .rect c s.frame
  | .rect x y w h rotation c => c.fill?.map fun c =>
    if rotation == 0 then .rect c (s.area x y w h) else .polygon c (s.turned x y w h rotation)
  | .circle cx cy r c => c.fill?.map fun c => .circle c (s.spot cx cy) (s.length r)
  | .line x1 y1 x2 y2 w c =>
    c.fill?.map fun c => .line c (s.spot x1 y1) (s.spot x2 y2) (s.length w)
  | .image a x y w h => if ready a then some (.image a.name (s.area x y w h)) else none
  | .text t x y size font c => c.fill?.map fun c =>
    let p := s.spot x y
    .text c t ⟨onTextGrid p.x, onTextGrid p.y⟩ (s.textSize size) (isMonospace font)

/-- The shapes of strokes, in order. -/
def paint (s : Surface) (ready : Ready) (ps : List Paint) : List Shape :=
  ps.filterMap (s.shape? ready)

end Surface
end StageScript

import Scanline.Box
import Scanline.Format.Basic
import Scanline.Orientation
import Scanline.Text.Quoted
/-! The shape of a pixmap without its pixels: size, row stride, format, clip and orientation, and
the map from oriented coordinates to those of the buffer. Strides and buffer lengths are counted
in 64 bits, and no side is longer than the greatest coordinate. -/

namespace Scanline

/-- The number of byte addresses. -/
def addressSpace : Nat := 18446744073709551616

/-- The most bytes that one buffer can have. -/
def maxBuffer : Nat := 9223372036854775807

def clipText : Option Box → String
  | none => "None"
  | some b => s!"Some({b.fieldText})"

structure Frame where
  width : Nat
  height : Nat
  /-- Distance from one row to the next in bytes. -/
  stride : Nat
  /-- The power of two to which new strides are rounded up. -/
  align : Nat
  format : Format
  /-- Drawing writes only inside the clip. -/
  clip : Option Box
  orientation : Orientation
deriving DecidableEq

namespace Frame

def rowBytes (f : Frame) : Nat := f.format.depth.rowBytes f.width

def bounds (f : Frame) : Box := Box.ofSize 0 0 f.width f.height

/-- The box that drawing may write. -/
def clipRect (f : Frame) : Box :=
  match f.clip with
  | some c => c.intersect f.bounds
  | none => f.bounds

def orientedWidth (f : Frame) : Nat := if f.orientation.swapAxes then f.height else f.width

def orientedHeight (f : Frame) : Nat := if f.orientation.swapAxes then f.width else f.height

/-- A coordinate seen from the other end of a side. -/
def mirror (size : Nat) (v : Int) : Int := clampCoord (size - 1 - v)

/-- The point of the buffer that an oriented point shows. -/
def transformPoint (f : Frame) (p : Point) : Point :=
  let q := if f.orientation.swapAxes then ⟨p.y, p.x⟩ else p
  ⟨if f.orientation.mirrorX then mirror f.width q.x else q.x,
    if f.orientation.mirrorY then mirror f.height q.y else q.y⟩

/-- The box of the buffer that an oriented box shows. -/
def transformBox (f : Frame) (b : Box) : Box :=
  if b.isEmpty then Box.empty
  else
    Box.ofCorners (f.transformPoint ⟨b.x, b.y⟩)
      (f.transformPoint ⟨clampCoord b.lastX, clampCoord b.lastY⟩)

def fieldText (f : Frame) : String :=
  s!"Pixmap \x7b width: {f.width}, height: {f.height}, stride: {f.stride}, " ++
    s!"format: {Text.quoted f.format.name}, clip: {clipText f.clip}, " ++
    s!"orientation: {f.orientation.fieldText}, .. \x7d"

/-- Whether the bytes of all rows can be counted. -/
def bufferSize? (width height stride : Nat) : Except ConfigError Nat :=
  if stride * height < addressSpace then .ok (stride * height)
  else .error (.dimensionsTooLarge width height)

/-- The shortest stride for a row of `width` pixels that is a multiple of `align`. -/
def strideFor (format : Format) (width height align : Nat) : Except ConfigError Nat :=
  let row := format.depth.rowBytes width
  let stride := (row + (align - 1)) / align * align
  if align ≠ 1 <<< align.log2 then .error (.invalidStrideAlign align)
  else if (width : Int) > coordMax ∨ (height : Int) > coordMax then
    .error (.dimensionsTooLarge width height)
  else if stride < addressSpace then .ok stride
  else .error (.dimensionsTooLarge width height)

end Frame

end Scanline

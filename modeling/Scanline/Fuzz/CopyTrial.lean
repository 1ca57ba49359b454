import Scanline.Blit.Basic
import Scanline.Fuzz.Specimen
/-! Trials of clipped copies. After a copy every pixel of the destination has to be the converted
source pixel that the shift names, or what it was before, and the answered box has to be the box of
the copied pixels. -/

namespace Scanline.Fuzz

structure CopyTrial where
  src : Specimen
  dst : Specimen
  salt : Pixel
  a : Point
  b : Point
  target : Point
deriving DecidableEq

namespace CopyTrial

def read : Reader CopyTrial := do
  let src ← Specimen.read
  let dst ← Specimen.read
  let salt ← Reader.unsigned 4
  let x0 ← Reader.coord
  let y0 ← Reader.coord
  let x1 ← Reader.coord
  let y1 ← Reader.coord
  let x2 ← Reader.coord
  let y2 ← Reader.coord
  return ⟨src, dst, salt.toUInt32, ⟨x0, y0⟩, ⟨x1, y1⟩, ⟨x2, y2⟩⟩

def window (t : CopyTrial) : Window := Window.ofCorners t.a t.b

/-- The source pixel that belongs at a cell of the destination. -/
def origin? (t : CopyTrial) (src : Frame) (c : Nat × Nat) : Option Point :=
  let r := t.window
  let s : Point := ⟨c.1 - (t.target.x - r.left), c.2 - (t.target.y - r.top)⟩
  if s ∈ r ∧ s ∈ src.bounds then some s else none

/-- What a cell of the destination has to be, given the destination before. -/
def expected (t : CopyTrial) (src before : Pixmap) (c : Nat × Nat) : Except Failure Pixel :=
  match t.origin? src.toFrame c with
  | some s => do src.format.convert (← src.getRaw s.x.toNat s.y.toNat) before.format
  | none => before.getRaw c.1 c.2

def mismatch? (t : CopyTrial) (src before after : Pixmap) (c : Nat × Nat) :
    Except Failure (Option Violation) := do
  let expected ← t.expected src before c
  let actual ← after.getRaw c.1 c.2
  if actual = expected then return none
  else
    let kind := if (t.origin? src.toFrame c).isSome then .wrongValue else .outOfBounds
    return some ⟨kind,
      s!"({c.1}, {c.2}) is {hexText actual}, expected {hexText expected}"⟩

def firstMismatch? (t : CopyTrial) (src before after : Pixmap) :
    Except Failure (Option Violation) :=
  after.cells.findSomeM? (t.mismatch? src before after)

/-- The box of the cells that are copied to. -/
def copied (t : CopyTrial) (src dst : Frame) : Box :=
  (dst.cells.filter fun c => (t.origin? src c).isSome).foldl
    (fun b c => b.union (Box.ofSize c.1 c.2 1 1)) Box.empty

/-- Whether the copy was cut at both ends. -/
def isPartial (copied : Box) (src dst : Frame) : Bool :=
  !copied.isEmpty && copied != dst.bounds && copied.area < src.bounds.area

def judge (t : CopyTrial) : Attempt Verdict := do
  let src ← t.src.pixmap
  let dst ← t.dst.pixmap
  let src ← src.generate (pattern t.salt)
  let dst ← dst.generate (pattern (~~~t.salt))
  let before ← dst.fillPadding paddingMark
  let (box, after) ← before.blitClipped src t.window t.target
  if !(← after.paddingIs paddingMark) then
    return .violated ⟨.paddingWritten, s!"stride {after.stride} row {after.rowBytes}"⟩
  if let some v ← t.firstMismatch? src before after then return .violated v
  let copied := t.copied src.toFrame after.toFrame
  if box ≠ copied then
    return .violated ⟨.wrongBox, s!"returned {box.geometry}, copied {copied.geometry}"⟩
  if isPartial copied src.toFrame after.toFrame then
    return .interesting s!"partial copy {copied.geometry}"
  return .passed

end CopyTrial

namespace Target

def copies {σ : Type} : Target σ := ofTrial "blit_clipped" 8 CopyTrial.read CopyTrial.judge

end Target

end Scanline.Fuzz

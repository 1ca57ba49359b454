import Scanline.Draw
import Scanline.Fuzz.Specimen
/-! Trials of circles and disks. Both have to answer one box inside the clip, the outline has to
lie in the disk, every pixel has to be as far from the center as the radius allows, and the box has
to be the bounding square inside the clip. -/

namespace Scanline.Fuzz

structure CircleTrial where
  specimen : Specimen
  clip : Option Box
  center : Point
  r : Int
deriving DecidableEq

namespace CircleTrial

def readClip : Reader (Option Box) := do
  if (← Reader.byte) &&& 1 == 1 then
    let x ← Reader.signed 1
    let y ← Reader.signed 1
    let w ← Reader.size maxSide
    let h ← Reader.size maxSide
    return some (Box.ofSize x y w h)
  else return none

def readRadius : Reader Int := do
  match (← Reader.byte).toNat % 3 with
  | 0 => Reader.signed 1
  | 1 => Reader.signed 2
  | _ => Reader.signed 4

def read : Reader CircleTrial := do
  let specimen ← Specimen.read
  let clip ← readClip
  let x ← Reader.coord
  let y ← Reader.coord
  let r ← readRadius
  return ⟨specimen, clip, ⟨x, y⟩, r⟩

/-- The squared distance of a cell from the center. -/
def distance (t : CircleTrial) (c : Nat × Nat) : Int :=
  (c.1 - t.center.x) * (c.1 - t.center.x) + (c.2 - t.center.y) * (c.2 - t.center.y)

/-- The violation at a cell that the outline or the disk may have written. -/
def misplaced? (t : CircleTrial) (clip box : Box) (outline disk : Pixmap) (c : Nat × Nat) :
    Except Failure (Option Violation) := do
  let onOutline := (← outline.getRaw c.1 c.2) != 0
  let inDisk := (← disk.getRaw c.1 c.2) != 0
  let p : Point := ⟨c.1, c.2⟩
  let d := t.distance c
  if !onOutline && !inDisk then return none
  else if p ∉ clip ∨ p ∉ box then
    return some ⟨.outOfBounds, s!"({c.1}, {c.2}) outside {box.geometry}"⟩
  else if onOutline && !inDisk then
    return some ⟨.wrongValue, s!"outline pixel ({c.1}, {c.2}) not in disk"⟩
  else if d > t.r * t.r + t.r ∨ (onOutline ∧ d < t.r * t.r - t.r) then
    return some ⟨.wrongValue, s!"({c.1}, {c.2}) at squared distance {d} from radius {t.r}"⟩
  else return none

def firstMisplaced? (t : CircleTrial) (clip box : Box) (outline disk : Pixmap) :
    Except Failure (Option Violation) :=
  outline.cells.findSomeM? (t.misplaced? clip box outline disk)

/-- The bounding square inside the clip. -/
def square (t : CircleTrial) (clip : Box) : Box :=
  Box.ofCorners ⟨max (t.center.x - t.r) clip.x, max (t.center.y - t.r) clip.y⟩
    ⟨min (t.center.x + t.r) clip.lastX, min (t.center.y + t.r) clip.lastY⟩

def judge (t : CircleTrial) : Attempt Verdict := do
  let canvas := (← t.specimen.pixmap).setClip t.clip
  let clip := canvas.clipRect
  let (outlineBox, outline) ← canvas.draw (.circle t.center t.r) 1
  let (diskBox, disk) ← canvas.draw (.disk t.center t.r) 1
  if outlineBox ≠ diskBox then
    return .violated ⟨.wrongBox, s!"outline {outlineBox.geometry} disk {diskBox.geometry}"⟩
  if !clip.covers outlineBox then
    return .violated ⟨.wrongBox, s!"{outlineBox.geometry} exceeds clip {clip.geometry}"⟩
  if t.r < 0 && !outlineBox.isEmpty then
    return .violated ⟨.wrongBox, s!"radius {t.r} drew {outlineBox.geometry}"⟩
  if let some v ← t.firstMisplaced? clip outlineBox outline disk then return .violated v
  let untouched := (← outline.lit).isEmpty && (← disk.lit).isEmpty
  let square := t.square clip
  if !untouched && outlineBox != square then
    return .violated ⟨.wrongBox,
      s!"{outlineBox.geometry} is not the clipped bounding square {square.geometry}"⟩
  if !untouched && t.clip.isSome then return .interesting s!"clipped circle r={t.r}"
  return .passed

end CircleTrial

namespace Target

def circles {σ : Type} : Target σ := ofTrial "circle" 6 CircleTrial.read CircleTrial.judge

end Target

end Scanline.Fuzz

import Scanline.Fuzz.Specimen
/-! Trials of the laws of boxes: intersection and union commute, are idempotent and have the empty
box as zero and as identity, the intersection has the points of both, and the union is the tight
hull as long as extents reach. -/

namespace Scanline.Fuzz

structure BoxTrial where
  a : Box
  b : Box
  p : Point
deriving DecidableEq

namespace BoxTrial

def readBox : Reader Box := do
  let x ← Reader.coord
  let y ← Reader.coord
  let w ← Reader.extent
  let h ← Reader.extent
  return Box.ofSize x y w h

def read : Reader BoxTrial := do
  let a ← readBox
  let b ← readBox
  let x ← Reader.coord
  let y ← Reader.coord
  return ⟨a, b, ⟨x, y⟩⟩

/-- Whether the edges of two boxes overlap in both directions. -/
def overlap (a b : Box) : Bool :=
  !a.isEmpty && !b.isEmpty && max a.x b.x < min a.right b.right &&
    max a.y b.y < min a.bottom b.bottom

/-- Whether the hull of two boxes is no larger than a box can be. -/
def hullFits (a b : Box) : Bool :=
  max a.right b.right - min a.x b.x ≤ sizeMax && max a.bottom b.bottom - min a.y b.y ≤ sizeMax

/-- Whether the edges of a box are those of the hull of two others. -/
def isHull (join a b : Box) : Bool :=
  join.x = min a.x b.x && join.y = min a.y b.y && join.right = max a.right b.right &&
    join.bottom = max a.bottom b.bottom

/-- The laws by name, each with the answer whether it holds here. -/
def laws (t : BoxTrial) : List (String × Bool) :=
  let ⟨a, b, p⟩ := t
  let meet := a.intersect b
  let join := a.union b
  let fits := hullFits a b
  [("intersect commutes", meet == b.intersect a),
    ("union commutes", join == b.union a),
    ("intersection inside both", a.covers meet && b.covers meet),
    ("intersection area", meet.area ≤ min a.area b.area),
    ("intersection membership", decide (p ∈ meet) == (decide (p ∈ a) && decide (p ∈ b))),
    ("idempotence", a.intersect a == a && a.union a == a),
    ("union identity", a.union Box.empty == a),
    ("intersect annihilator", a.intersect Box.empty == Box.empty),
    ("canonical empty", a.isEmpty == (a == Box.empty)),
    ("overlap test", a.intersects b == overlap a b),
    ("union covers both",
      !(fits || a.isEmpty || b.isEmpty) || (join.covers a && join.covers b)),
    ("union is tight", !(fits && !a.isEmpty && !b.isEmpty) || isHull join a b)]

def judge (t : BoxTrial) : Verdict :=
  match t.laws.find? fun law => !law.2 with
  | some law =>
    .violated ⟨.boxAlgebra, s!"{law.1} fails for {t.a.fieldText} and {t.b.fieldText}"⟩
  | none => if t.a.intersects t.b && t.a != t.b then .interesting "overlapping boxes" else .passed

end BoxTrial

namespace Target

def boxes {σ : Type} : Target σ := ofTrial "bbox" 4 BoxTrial.read fun t => return t.judge

end Target

end Scanline.Fuzz

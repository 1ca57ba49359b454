/-! Rectangles of pixels. The origin is a pair of 32-bit signed coordinates, the size a pair of
32-bit unsigned extents, and edges are exact integers. A rectangle without pixels has no origin:
every operation answers the one empty box. Results that leave the coordinates have their origin
clamped to them, and a side that is too long is cut off. -/

namespace Scanline

def coordMin : Int := -2147483648

def coordMax : Int := 2147483647

def sizeMax : Nat := 4294967295

def clampCoord (v : Int) : Int := max coordMin (min v coordMax)

structure Point where
  x : Int
  y : Int
deriving DecidableEq

structure Box where
  x : Int
  y : Int
  w : Nat
  h : Nat
deriving DecidableEq

namespace Box

def empty : Box := ⟨0, 0, 0, 0⟩

instance : Inhabited Box := ⟨empty⟩

def ofSize (x y : Int) (w h : Nat) : Box :=
  if w = 0 ∨ h = 0 then empty else ⟨x, y, w, h⟩

/-- The box between exclusive right and bottom edges. The origin is clamped to the coordinates and
the size to the extents; a box that starts past its end is empty. -/
def ofEdges (left top right bottom : Int) : Box :=
  let left := clampCoord left
  let top := clampCoord top
  if right ≤ left ∨ bottom ≤ top then empty
  else ofSize left top (min (right - left).toNat sizeMax) (min (bottom - top).toNat sizeMax)

/-- The box through two inclusive corners, given in any order. -/
def ofCorners (a b : Point) : Box :=
  ofEdges (min a.x b.x) (min a.y b.y) (max a.x b.x + 1) (max a.y b.y + 1)

def isEmpty (b : Box) : Bool := b.w = 0 || b.h = 0

/-- The exclusive right edge. -/
def right (b : Box) : Int := b.x + b.w

/-- The exclusive bottom edge. -/
def bottom (b : Box) : Int := b.y + b.h

/-- The last column of a box that is not empty. -/
def lastX (b : Box) : Int := b.right - 1

def lastY (b : Box) : Int := b.bottom - 1

def area (b : Box) : Nat := b.w * b.h

instance : Membership Point Box where
  mem b p := b.x ≤ p.x ∧ p.x < b.right ∧ b.y ≤ p.y ∧ p.y < b.bottom

theorem mem_iff {p : Point} {b : Box} :
    p ∈ b ↔ b.x ≤ p.x ∧ p.x < b.right ∧ b.y ≤ p.y ∧ p.y < b.bottom := Iff.rfl

instance (p : Point) (b : Box) : Decidable (p ∈ b) := decidable_of_iff _ mem_iff.symm

/-- The smallest box around two boxes, as far as extents reach. -/
def union (a b : Box) : Box :=
  if a.isEmpty then b
  else if b.isEmpty then a
  else ofEdges (min a.x b.x) (min a.y b.y) (max a.right b.right) (max a.bottom b.bottom)

def intersect (a b : Box) : Box :=
  if a.isEmpty || b.isEmpty then empty
  else ofEdges (max a.x b.x) (max a.y b.y) (min a.right b.right) (min a.bottom b.bottom)

def intersects (a b : Box) : Bool := !(a.intersect b).isEmpty

def translate (b : Box) (dx dy : Int) : Box :=
  if b.isEmpty then empty
  else ofEdges (b.x + dx) (b.y + dy) (b.x + dx + b.w) (b.y + dy + b.h)

/-- Whether the first box covers the second. Every box covers the empty one. -/
def covers (a b : Box) : Bool :=
  b.isEmpty ||
    (!a.isEmpty && decide (a.x ≤ b.x) && decide (a.y ≤ b.y) &&
      decide (b.right ≤ a.right) && decide (b.bottom ≤ a.bottom))

/-- A coordinate with its sign always written. -/
def signed (v : Int) : String := if 0 ≤ v then s!"+{v}" else s!"{v}"

/-- The text of a box in geometry notation, such as `3x2+1-4`. -/
def geometry (b : Box) : String :=
  if b.isEmpty then "empty" else s!"{b.w}x{b.h}{signed b.x}{signed b.y}"

def fieldText (b : Box) : String :=
  s!"BBox \x7b x: {b.x}, y: {b.y}, w: {b.w}, h: {b.h} \x7d"

@[simp] theorem isEmpty_empty : empty.isEmpty = true := rfl

theorem isEmpty_iff {b : Box} : b.isEmpty = true ↔ b.w = 0 ∨ b.h = 0 := by simp [isEmpty]

theorem isEmpty_eq_false_iff {b : Box} : b.isEmpty = false ↔ 0 < b.w ∧ 0 < b.h := by
  simp only [isEmpty, Bool.or_eq_false_iff, decide_eq_false_iff_not]
  omega

theorem not_mem_empty (p : Point) : p ∉ empty := by
  simp only [mem_iff, empty, right, bottom]
  omega

end Box

end Scanline

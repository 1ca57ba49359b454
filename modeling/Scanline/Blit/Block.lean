import Scanline.Frame
/-! Rectangles to copy and where they go. A window is a rectangle of the source in exact integers;
a block is a window with its place in the destination, valid in both. -/

namespace Scanline

/-- A rectangle with inclusive edges. -/
structure Window where
  left : Int
  top : Int
  right : Int
  bottom : Int
deriving DecidableEq

namespace Window

/-- The window through two corners, given in any order. -/
def ofCorners (a b : Point) : Window := ⟨min a.x b.x, min a.y b.y, max a.x b.x, max a.y b.y⟩

/-- The window of an origin and a size; there is none without pixels. -/
def ofSize? (x y : Int) (w h : Nat) : Option Window :=
  if w = 0 ∨ h = 0 then none else some ⟨x, y, x + w - 1, y + h - 1⟩

instance : Membership Point Window where
  mem r p := r.left ≤ p.x ∧ p.x ≤ r.right ∧ r.top ≤ p.y ∧ p.y ≤ r.bottom

theorem mem_iff {p : Point} {r : Window} :
    p ∈ r ↔ r.left ≤ p.x ∧ p.x ≤ r.right ∧ r.top ≤ p.y ∧ p.y ≤ r.bottom := Iff.rfl

instance (p : Point) (r : Window) : Decidable (p ∈ r) := decidable_of_iff _ mem_iff.symm

def width (r : Window) : Int := r.right - r.left + 1

def height (r : Window) : Int := r.bottom - r.top + 1

end Window

/-- A block of `w` by `h` pixels with its origins in source and destination. -/
structure Block where
  w : Int
  h : Int
  sx : Int
  sy : Int
  dx : Int
  dy : Int
deriving DecidableEq

namespace Block

def source (b : Block) : Box := Box.ofEdges b.sx b.sy (b.sx + b.w) (b.sy + b.h)

def target (b : Block) : Box := Box.ofEdges b.dx b.dy (b.dx + b.w) (b.dy + b.h)

end Block

namespace Window

def place (r : Window) (q : Point) : Block := ⟨r.width, r.height, r.left, r.top, q.x, q.y⟩

/-- Whether a rectangle of pixels lies in a picture of the given size. -/
def fits (x y w h : Int) (width height : Nat) : Bool :=
  0 ≤ x && 0 ≤ y && x + w ≤ width && y + h ≤ height

/-- Whether the window lies in a picture of the given size. -/
def isInside (r : Window) (width height : Nat) : Bool :=
  fits r.left r.top r.width r.height width height

/-- Whether the window placed at `q` lies in a picture of the given size. -/
def isInsideAt (r : Window) (q : Point) (width height : Nat) : Bool :=
  fits q.x q.y r.width r.height width height

/-- The part of the window placed at `q` that is valid in source and destination, whose sizes are
given in that order. Every pixel keeps its place relative to `q`. -/
def clipped? (r : Window) (q : Point) (srcWidth srcHeight dstWidth dstHeight : Nat) :
    Option Block :=
  let dx := q.x - r.left
  let dy := q.y - r.top
  let left := max (max r.left 0) (-dx)
  let top := max (max r.top 0) (-dy)
  let right := min (min r.right (srcWidth - 1)) (dstWidth - 1 - dx)
  let bottom := min (min r.bottom (srcHeight - 1)) (dstHeight - 1 - dy)
  if left > right ∨ top > bottom then none
  else some ⟨right - left + 1, bottom - top + 1, left, top, left + dx, top + dy⟩

end Window

end Scanline

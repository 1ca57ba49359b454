import Scanline.Run
/-! Straight lines with one pixel for each step along the longer axis. The other coordinate is the
exact line rounded half up, so the pixels do not depend on the order of the ends, and only the
steps inside the clip are visited. -/

namespace Scanline.Line

/-- How far a line has come along the shorter axis after `i` of `major` steps. -/
def step (i minor major : Int) : Int := (2 * i * minor + major) / (2 * major)

/-- Whether the line is at least as wide as high. -/
def isFlat (a b : Point) : Bool := (b.y - a.y).natAbs ≤ (b.x - a.x).natAbs

def runs (clip : Box) (a b : Point) : List Run :=
  if a.y = b.y then Run.span clip a.x b.x a.y
  else if a.x = b.x then Run.column clip a.x a.y b.y
  else if isFlat a b then
    let (a, b) := if a.x > b.x then (b, a) else (a, b)
    (intRange (max a.x clip.x) (min b.x clip.lastX)).flatMap fun x =>
      Run.dot clip x (a.y + step (x - a.x) (b.y - a.y) (b.x - a.x))
  else
    let (a, b) := if a.y > b.y then (b, a) else (a, b)
    (intRange (max a.y clip.y) (min b.y clip.lastY)).flatMap fun y =>
      Run.dot clip (a.x + step (y - a.y) (b.x - a.x) (b.y - a.y)) y

end Scanline.Line

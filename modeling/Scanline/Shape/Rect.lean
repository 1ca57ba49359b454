import Scanline.Run
/-! Rectangles through two inclusive corners, given in any order. -/

namespace Scanline.Rect

def outlineRuns (clip : Box) (a b : Point) : List Run :=
  let left := min a.x b.x
  let right := max a.x b.x
  let top := min a.y b.y
  let bottom := max a.y b.y
  Run.span clip left right top ++ Run.span clip left right bottom ++
    if bottom - top > 1 then
      Run.column clip left (top + 1) (bottom - 1) ++ Run.column clip right (top + 1) (bottom - 1)
    else []

def solidRuns (clip : Box) (a b : Point) : List Run :=
  let part := (Box.ofCorners a b).intersect clip
  (intRange part.y part.lastY).flatMap fun y => Run.span part part.x part.lastX y

end Scanline.Rect

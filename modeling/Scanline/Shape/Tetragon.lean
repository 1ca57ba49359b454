import Scanline.Shape.Line
/-! Closed outlines through four points and what they enclose by the even-odd rule. The sides may
cross each other. -/

namespace Scanline

structure Tetragon where
  a : Point
  b : Point
  c : Point
  d : Point
deriving DecidableEq

namespace Tetragon

def map (f : Point → Point) (t : Tetragon) : Tetragon := ⟨f t.a, f t.b, f t.c, f t.d⟩

/-- The sides, each from a corner to the next. -/
def sides (t : Tetragon) : List (Point × Point) := [(t.a, t.b), (t.b, t.c), (t.c, t.d), (t.d, t.a)]

/-- The least and the greatest of four integers. -/
def least (a b c d : Int) : Int := min (min a b) (min c d)

def greatest (a b c d : Int) : Int := max (max a b) (max c d)

def box (t : Tetragon) : Box :=
  Box.ofEdges (least t.a.x t.b.x t.c.x t.d.x) (least t.a.y t.b.y t.c.y t.d.y)
    (greatest t.a.x t.b.x t.c.x t.d.x + 1) (greatest t.a.y t.b.y t.c.y t.d.y + 1)

/-- Whether a side crosses row `y`. The lower end does not count, so that a corner between two
sides counts once. -/
def crosses (y : Int) (side : Point × Point) : Bool :=
  side.1.y ≠ side.2.y && min side.1.y side.2.y ≤ y && y < max side.1.y side.2.y

/-- The column nearest to where a side crosses row `y`, a half rounded up. -/
def crossing (y : Int) (side : Point × Point) : Int :=
  let num := (y - side.1.y) * (side.2.x - side.1.x)
  let den := side.2.y - side.1.y
  let (num, den) := if den < 0 then (-num, -den) else (num, den)
  side.1.x + (2 * num + den) / (2 * den)

/-- The columns at which sides cross row `y`, in order. -/
def crossings (t : Tetragon) (y : Int) : List Int :=
  ((t.sides.filter (crosses y)).map (crossing y)).mergeSort

/-- Neighbours of a list, two by two. -/
def pairs : List Int → List (Int × Int)
  | x :: y :: rest => (x, y) :: pairs rest
  | _ => []

def outlineRuns (clip : Box) (t : Tetragon) : List Run :=
  t.sides.flatMap fun side => Line.runs clip side.1 side.2

def solidRuns (clip : Box) (t : Tetragon) : List Run :=
  let part := t.box.intersect clip
  ((intRange part.y part.lastY).flatMap fun y =>
      (pairs (t.crossings y)).flatMap fun p => Run.span clip p.1 p.2 y) ++
    outlineRuns clip t

end Tetragon

end Scanline

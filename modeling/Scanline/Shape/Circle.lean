import Scanline.Run
/-! Circles of integer radius by the midpoint rule. One eighth of the outline, from the top to the
diagonal, determines both outline and disk. It is given twice: as a walk with an error term, and
solved for each column, so that only what can reach the clip is visited however large the radius. -/

namespace Scanline.Circle

/-- A walk along the octant that starts at the top and ends on the diagonal. -/
structure Walk where
  x : Int
  y : Int
  err : Int
deriving DecidableEq

namespace Walk

def start (r : Int) : Walk := ⟨0, r, 1 - r⟩

/-- The point that the walk is at, and the walk one column on. -/
def next? (w : Walk) : Option ((Int × Int) × Walk) :=
  if w.x > w.y then none
  else
    let x := w.x + 1
    if w.err < 0 then some ((w.x, w.y), ⟨x, w.y, w.err + (2 * x + 1)⟩)
    else some ((w.x, w.y), ⟨x, w.y - 1, w.err + (2 * (x - (w.y - 1)) + 1)⟩)

end Walk

/-- The rows of a disk in the order of the walk: the row of each column, and after the last column
of a height the row of that height. -/
structure Rows where
  walk : Walk
  pending : Option (Int × Int)
deriving DecidableEq

namespace Rows

def start (r : Int) : Rows := ⟨Walk.start r, none⟩

/-- The next row as its distance from the center and its half width. -/
def next? (s : Rows) : Option ((Int × Int) × Rows) :=
  match s.pending with
  | some row => some (row, ⟨s.walk, none⟩)
  | none =>
    match s.walk.next? with
    | none => none
    | some ((x, y), walk) =>
      let lastOfHeight : Bool :=
        match walk.next? with
        | some ((_, height), _) => height != y
        | none => true
      some ((x, y), ⟨walk, if lastOfHeight && x != y then some (y, x) else none⟩)

end Rows

/-- At most `n` values of a sequence given by its steps, and what is left of it. -/
def takeSteps {σ α : Type} (next? : σ → Option (α × σ)) : Nat → σ → List α × σ
  | 0, s => ([], s)
  | n + 1, s =>
    match next? s with
    | none => ([], s)
    | some (a, s) =>
      let rest := takeSteps next? n s
      (a :: rest.1, rest.2)

/-- Whether the midpoint between rows `b - 1` and `b` of column `a` lies inside the circle. -/
def inside (r a b : Int) : Bool := 4 * a * a + (2 * b - 1) * (2 * b - 1) < 4 * r * r

/-- The last integer of a range up to which a test holds, if it holds on a first part of it. -/
def lastWhere (test : Int → Bool) (lo hi : Int) : Int :=
  if lo < hi then
    let mid := lo + (hi - lo + 1) / 2
    if test mid then lastWhere test mid hi else lastWhere test lo (mid - 1)
  else lo
termination_by (hi - lo).toNat

/-- The last column of the octant of radius `r`. -/
def octantEnd (r : Int) : Int := if r = 0 then 0 else lastWhere (fun x => inside r x x) 0 r

/-- The height of the octant above column `x`. -/
def octantHeight (r x : Int) : Int := if r = 0 then 0 else lastWhere (fun y => inside r x y) 0 r

/-- Half the width of the disk row at distance `dy` from the center, for an octant that ends
at column `last`. -/
def halfWidth (r last dy : Int) : Int :=
  if r = 0 then 0
  else if dy ≤ last then octantHeight r dy
  else lastWhere (fun w => inside r w dy) 0 r

/-- The distances from `c`, at most `most`, at which some point lies between `lo` and `hi`. -/
def offsets (c lo hi most : Int) : Int × Int :=
  if c < lo then (lo - c, min (hi - c) most)
  else if c > hi then (c - hi, min (c - lo) most)
  else (0, min (max (hi - c) (c - lo)) most)

def box (c : Point) (r : Int) : Box :=
  if r < 0 then Box.empty else Box.ofEdges (c.x - r) (c.y - r) (c.x + r + 1) (c.y + r + 1)

/-- The columns of the octant with a mirror image in the columns or the rows of the clip. -/
def columns (clip : Box) (c : Point) (r : Int) : List Int :=
  let last := octantEnd r
  let across := offsets c.x clip.x clip.lastX last
  let down := offsets c.y clip.y clip.lastY last
  intRange across.1 across.2 ++
    (intRange down.1 down.2).filter fun x => !(across.1 ≤ x && x ≤ across.2)

/-- The eight mirror images of a point of the octant. -/
def mirrored (c : Point) (x y : Int) : List Point :=
  [⟨c.x + x, c.y + y⟩, ⟨c.x + y, c.y - x⟩, ⟨c.x - x, c.y - y⟩, ⟨c.x - y, c.y + x⟩] ++
    if x ≠ 0 ∧ x ≠ y then
      [⟨c.x - x, c.y + y⟩, ⟨c.x + y, c.y + x⟩, ⟨c.x + x, c.y - y⟩, ⟨c.x - y, c.y - x⟩]
    else []

/-- The outline inside the clip. -/
def outlineRuns (clip : Box) (c : Point) (r : Int) : List Run :=
  (columns clip c r).flatMap fun x =>
    (mirrored c x (octantHeight r x)).flatMap fun p => Run.dot clip p.x p.y

def diskRuns (clip : Box) (c : Point) (r : Int) : List Run :=
  let last := octantEnd r
  let rows := offsets c.y clip.y clip.lastY r
  (intRange rows.1 rows.2).flatMap fun dy =>
    let w := halfWidth r last dy
    Run.span clip (c.x - w) (c.x + w) (c.y - dy) ++
      if dy ≠ 0 then Run.span clip (c.x - w) (c.x + w) (c.y + dy) else []

end Scanline.Circle

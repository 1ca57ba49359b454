import Scanline.Proofs.Machine.Runs
import Scanline.Proofs.Shape.Tetragon
/-! Lines, rectangles and tetragons in machine arithmetic. Where a side crosses a row or a column is
a quotient of products of 128 bits, and no further away than the side is long. -/

namespace Scanline

/-- All four corners are pairs of coordinates. -/
structure Tetragon.InRange (t : Tetragon) : Prop where
  a : t.a.InRange
  b : t.b.InRange
  c : t.c.InRange
  d : t.d.InRange

namespace Machine

/-- A quotient rounded down. -/
def quotient (a b : Int) : Except Failure Int :=
  if b = 0 then .error (.fault .zeroDivision) else i128 (a / b)

/-- How far a line has come along the shorter axis after `i` of `major` steps. -/
def lineStep (i minor major : Int) : Except Failure Int := do
  let num ← i128 ((← i128 ((← i128 (2 * i)) * minor)) + major)
  i64 (← quotient num (← i128 (2 * major)))

def isFlat (a b : Point) : Except Failure Bool := do
  return (← i64 (← i64 (b.y - a.y)).natAbs) ≤ (← i64 (← i64 (b.x - a.x)).natAbs)

/-- A line that goes from `a` to `b` along the longer axis and from `c` to `d` along the other, at
the steps between `lo` and `hi`. -/
def along (a b c d lo hi : Int) (plot : Int → Int → Except Failure (List Run)) :
    Except Failure (List Run) :=
  gather (fun v => do
    let way ← lineStep (← i64 (v - a)) (← i64 (d - c)) (← i64 (b - a))
    plot v (← i64 (c + way))) (intRange (max a lo) (min b hi))

def flatRuns (clip : Box) (a b : Point) : Except Failure (List Run) := do
  along a.x b.x a.y b.y clip.x (← lastX clip) fun x y => dot clip x y

def steepRuns (clip : Box) (a b : Point) : Except Failure (List Run) := do
  along a.y b.y a.x b.x clip.y (← lastY clip) fun y x => dot clip x y

def lineRuns (clip : Box) (a b : Point) : Except Failure (List Run) := do
  if a.y = b.y then span clip a.x b.x a.y
  else if a.x = b.x then column clip a.x a.y b.y
  else if ← isFlat a b then if a.x > b.x then flatRuns clip b a else flatRuns clip a b
  else if a.y > b.y then steepRuns clip b a else steepRuns clip a b

def rectRuns (clip : Box) (a b : Point) : Except Failure (List Run) := do
  let left := min a.x b.x
  let right := max a.x b.x
  let top := min a.y b.y
  let bottom := max a.y b.y
  let ends := (← span clip left right top) ++ (← span clip left right bottom)
  if (← i64 (bottom - top)) > 1 then
    let high ← i64 (top + 1)
    let low ← i64 (bottom - 1)
    return ends ++ ((← column clip left high low) ++ (← column clip right high low))
  else return ends ++ []

def solidRectRuns (clip : Box) (a b : Point) : Except Failure (List Run) := do
  let part ← intersect (← ofCorners a b) clip
  let last ← lastX part
  gather (fun y => span part part.x last y) (intRange part.y (← lastY part))

def tetragonBox (t : Tetragon) : Except Failure Box := do
  let right := Tetragon.greatest (← i64 (t.a.x + 1)) (← i64 (t.b.x + 1)) (← i64 (t.c.x + 1))
    (← i64 (t.d.x + 1))
  let bottom := Tetragon.greatest (← i64 (t.a.y + 1)) (← i64 (t.b.y + 1)) (← i64 (t.c.y + 1))
    (← i64 (t.d.y + 1))
  ofEdges (Tetragon.least t.a.x t.b.x t.c.x t.d.x) (Tetragon.least t.a.y t.b.y t.c.y t.d.y) right
    bottom

/-- The column nearest to `num / den` columns from `x`, a half rounded up. -/
def nearest (x num den : Int) : Except Failure Int := do
  let twice ← i128 ((← i128 (2 * num)) + den)
  i64 (x + (← i64 (← quotient twice (← i128 (2 * den)))))

/-- The column nearest to where a side crosses row `y`. -/
def crossing (y : Int) (side : Point × Point) : Except Failure Int := do
  let num ← i128 ((← i64 (y - side.1.y)) * (← i64 (side.2.x - side.1.x)))
  let den ← i64 (side.2.y - side.1.y)
  if den < 0 then nearest side.1.x (← i128 (-num)) (← i128 (-den)) else nearest side.1.x num den

def crossings (t : Tetragon) (y : Int) : Except Failure (List Int) := do
  return (← gather (fun side => return [← crossing y side])
    (t.sides.filter (Tetragon.crosses y))).mergeSort

def sidesRuns (clip : Box) (t : Tetragon) : Except Failure (List Run) :=
  gather (fun side => lineRuns clip side.1 side.2) t.sides

def solidRuns (clip : Box) (t : Tetragon) : Except Failure (List Run) := do
  let part ← intersect (← tetragonBox t) clip
  let inner ← gather (fun y => do
    gather (fun p => span clip p.1 p.2 y) (Tetragon.pairs (← crossings t y)))
    (intRange part.y (← lastY part))
  return inner ++ (← sidesRuns clip t)

section Lines
variable {i minor major : Int} {a b : Point} {clip : Box}

theorem lineStep_eq (hi : 0 ≤ i) (hi' : i ≤ major) (hmajor : 0 < major ∧ major ≤ 0x100000000)
    (hminor : -0x100000000 ≤ minor ∧ minor ≤ 0x100000000) :
    lineStep i minor major = .ok (Line.step i minor major) := by
  have hmul := mul_bounds (a := 2 * i) (b := minor) (m := 0x200000000) (n := 0x100000000) (by omega)
    (by omega)
  have hstep := Line.step_bounds minor hi hi'
  unfold Line.step at *
  rw [lineStep, i128_eq (by omega) (by omega), ok_bind, i128_eq (by omega) (by omega), ok_bind,
    i128_eq (by omega) (by omega), ok_bind, i128_eq (by omega) (by omega), ok_bind, quotient,
    if_neg (by omega), i128_eq (by omega) (by omega), ok_bind, i64_eq (by omega) (by omega)]

theorem isFlat_eq (ha : a.InRange) (hb : b.InRange) : isFlat a b = .ok (Line.isFlat a b) := by
  obtain ⟨hax, hay⟩ := point_fields ha
  obtain ⟨hbx, hby⟩ := point_fields hb
  rw [isFlat, i64_eq (by omega) (by omega), ok_bind, i64_eq (by omega) (by omega), ok_bind,
    i64_eq (by omega) (by omega), ok_bind, i64_eq (by omega) (by omega), ok_bind, Line.isFlat]
  simp only [Int.ofNat_le]
  rfl

theorem along_eq {a b c d lo hi : Int} {plot : Int → Int → Except Failure (List Run)}
    {exact : Int → Int → List Run} (ha : -0x80000000 ≤ a ∧ a ≤ 0x7fffffff)
    (hb : -0x80000000 ≤ b ∧ b ≤ 0x7fffffff) (hc : -0x80000000 ≤ c ∧ c ≤ 0x7fffffff)
    (hd : -0x80000000 ≤ d ∧ d ≤ 0x7fffffff) (h : a < b)
    (hplot : ∀ v w, plot v w = .ok (exact v w)) : along a b c d lo hi plot =
      .ok ((intRange (max a lo) (min b hi)).flatMap fun v =>
        exact v (c + Line.step (v - a) (d - c) (b - a))) := by
  apply gather_eq
  intro v hv
  rw [mem_intRange] at hv
  have hfrom : 0 ≤ v - a := by omega
  have hto : v - a ≤ b - a := by omega
  have hstep := Line.step_bounds (d - c) hfrom hto
  rw [i64_eq (by omega) (by omega), ok_bind, i64_eq (by omega) (by omega), ok_bind,
    i64_eq (by omega) (by omega), ok_bind, lineStep_eq hfrom hto (by omega) (by omega), ok_bind,
    i64_eq (by omega) (by omega), ok_bind]
  exact hplot _ _

variable (hclip : clip.InRange) (hs : clip.OnScreen) (ha : a.InRange) (hb : b.InRange)
include hclip hs ha hb

theorem flatRuns_eq (h : a.x < b.x) : flatRuns clip a b =
    .ok ((intRange (max a.x clip.x) (min b.x clip.lastX)).flatMap fun x =>
      Run.dot clip x (a.y + Line.step (x - a.x) (b.y - a.y) (b.x - a.x))) := by
  obtain ⟨hax, hay⟩ := point_fields ha
  obtain ⟨hbx, hby⟩ := point_fields hb
  rw [flatRuns, lastX_eq hclip]
  exact along_eq hax hbx hay hby h fun x y => dot_eq hclip hs x y

theorem steepRuns_eq (h : a.y < b.y) : steepRuns clip a b =
    .ok ((intRange (max a.y clip.y) (min b.y clip.lastY)).flatMap fun y =>
      Run.dot clip (a.x + Line.step (y - a.y) (b.x - a.x) (b.y - a.y)) y) := by
  obtain ⟨hax, hay⟩ := point_fields ha
  obtain ⟨hbx, hby⟩ := point_fields hb
  rw [steepRuns, lastY_eq hclip]
  exact along_eq hay hby hax hbx h fun y x => dot_eq hclip hs x y

theorem lineRuns_eq : lineRuns clip a b = .ok (Line.runs clip a b) := by
  unfold lineRuns Line.runs
  split
  · exact span_eq hclip hs _ _ _
  split
  · exact column_eq hclip hs _ _ _
  rw [isFlat_eq ha hb, ok_bind]
  split
  · split
    · exact flatRuns_eq hclip hs hb ha (by omega)
    · exact flatRuns_eq hclip hs ha hb (by omega)
  · split
    · exact steepRuns_eq hclip hs hb ha (by omega)
    · exact steepRuns_eq hclip hs ha hb (by omega)

theorem rectRuns_eq : rectRuns clip a b = .ok (Rect.outlineRuns clip a b) := by
  obtain ⟨-, hay⟩ := point_fields ha
  obtain ⟨-, hby⟩ := point_fields hb
  unfold rectRuns Rect.outlineRuns
  dsimp only
  rw [span_eq hclip hs, ok_bind, span_eq hclip hs, ok_bind, i64_eq (by omega) (by omega), ok_bind]
  split
  · rw [i64_eq (by omega) (by omega), ok_bind, i64_eq (by omega) (by omega), ok_bind,
      column_eq hclip hs, ok_bind, column_eq hclip hs]
    rfl
  · rfl

theorem solidRectRuns_eq : solidRectRuns clip a b = .ok (Rect.solidRuns clip a b) := by
  have hbox : (Box.ofCorners a b).InRange := (Box.canonical_ofCorners a b).toInRange
  have hpart : ((Box.ofCorners a b).intersect clip).InRange :=
    (Box.canonical_intersect _ _).toInRange
  rw [solidRectRuns, ofCorners_eq ha hb, ok_bind, intersect_eq hbox hclip, ok_bind, lastX_eq hpart,
    ok_bind, lastY_eq hpart]
  exact gather_eq fun y _ => span_eq hpart (hs.intersect _) _ _ _

end Lines

section Tetragons
variable {t : Tetragon} {clip : Box} {side : Point × Point} {y : Int}

theorem side_inRange (ht : t.InRange) (h : side ∈ t.sides) : side.1.InRange ∧ side.2.InRange := by
  obtain ⟨ha, hb, hc, hd⟩ := ht
  simp only [Tetragon.sides, List.mem_cons, List.not_mem_nil, or_false] at h
  rcases h with rfl | rfl | rfl | rfl
  · exact ⟨ha, hb⟩
  · exact ⟨hb, hc⟩
  · exact ⟨hc, hd⟩
  · exact ⟨hd, ha⟩

theorem tetragonBox_eq (ht : t.InRange) : tetragonBox t = .ok t.box := by
  obtain ⟨hax, hay⟩ := point_fields ht.a
  obtain ⟨hbx, hby⟩ := point_fields ht.b
  obtain ⟨hcx, hcy⟩ := point_fields ht.c
  obtain ⟨hdx, hdy⟩ := point_fields ht.d
  have hnext (k l m n : Int) : Tetragon.greatest (k + 1) (l + 1) (m + 1) (n + 1) =
      Tetragon.greatest k l m n + 1 := by
    unfold Tetragon.greatest
    omega
  rw [tetragonBox, i64_eq (by omega) (by omega), ok_bind, i64_eq (by omega) (by omega), ok_bind,
    i64_eq (by omega) (by omega), ok_bind, i64_eq (by omega) (by omega), ok_bind,
    i64_eq (by omega) (by omega), ok_bind, i64_eq (by omega) (by omega), ok_bind,
    i64_eq (by omega) (by omega), ok_bind, i64_eq (by omega) (by omega), ok_bind, hnext, hnext]
  apply ofEdges_eq
  · unfold Tetragon.greatest
    omega
  · unfold Tetragon.greatest
    omega

theorem nearest_eq {x num den : Int} (hx : -0x80000000 ≤ x ∧ x ≤ 0x7fffffff)
    (hnum : -0x10000000000000000 ≤ num ∧ num ≤ 0x10000000000000000)
    (hden : 0 < den ∧ den ≤ 0x100000000)
    (hsum : -0x80000000 ≤ x + (2 * num + den) / (2 * den) ∧
      x + (2 * num + den) / (2 * den) ≤ 0x7fffffff) :
    nearest x num den = .ok (x + (2 * num + den) / (2 * den)) := by
  rw [nearest, i128_eq (by omega) (by omega), ok_bind, i128_eq (by omega) (by omega), ok_bind,
    i128_eq (by omega) (by omega), ok_bind, quotient, if_neg (by omega),
    i128_eq (by omega) (by omega), ok_bind, i64_eq (by omega) (by omega), ok_bind,
    i64_eq (by omega) (by omega)]

/-- The row lies between the ends of the side, so that the crossing lies between its columns. -/
theorem crossing_eq (h : side.1.InRange ∧ side.2.InRange) (hy : Tetragon.crosses y side = true) :
    crossing y side = .ok (Tetragon.crossing y side) := by
  obtain ⟨hax, hay⟩ := point_fields h.1
  obtain ⟨hbx, hby⟩ := point_fields h.2
  have hsolid := Rect.mem_solid.mp (Tetragon.crossing_mem_solid hy)
  rw [Tetragon.crosses_iff] at hy
  have hmul := mul_bounds (a := y - side.1.y) (b := side.2.x - side.1.x) (m := 0x100000000)
    (n := 0x100000000) (by omega) (by omega)
  rw [crossing, i64_eq (by omega) (by omega), ok_bind, i64_eq (by omega) (by omega), ok_bind,
    i128_eq (by omega) (by omega), ok_bind, i64_eq (by omega) (by omega), ok_bind]
  unfold Tetragon.crossing at *
  dsimp only at *
  split
  · rename_i hneg
    simp only [if_pos hneg] at hsolid
    rw [i128_eq (by omega) (by omega), ok_bind, i128_eq (by omega) (by omega), ok_bind]
    exact nearest_eq hax (by omega) (by omega) (by omega)
  · rename_i hpos
    simp only [if_neg hpos] at hsolid
    exact nearest_eq hax (by omega) (by omega) (by omega)

theorem crossings_eq (ht : t.InRange) (y : Int) : crossings t y = .ok (t.crossings y) := by
  have hgather : gather (fun side => return [← crossing y side])
      (t.sides.filter (Tetragon.crosses y)) =
        .ok ((t.sides.filter (Tetragon.crosses y)).map (Tetragon.crossing y)) := by
    rw [List.map_eq_flatMap]
    apply gather_eq
    intro side hside
    obtain ⟨hside, hcrosses⟩ := List.mem_filter.mp hside
    rw [crossing_eq (side_inRange ht hside) hcrosses]
    rfl
  rw [crossings, hgather]
  rfl

section Runs
variable (hclip : clip.InRange) (hs : clip.OnScreen) (ht : t.InRange)
include hclip hs ht

theorem sidesRuns_eq : sidesRuns clip t = .ok (t.outlineRuns clip) := by
  apply gather_eq
  intro side hside
  obtain ⟨ha, hb⟩ := side_inRange ht hside
  exact lineRuns_eq hclip hs ha hb

theorem solidRuns_eq : solidRuns clip t = .ok (t.solidRuns clip) := by
  have hbox : t.box.InRange := Box.inRange_ofEdges _ _ _ _
  have hpart : (t.box.intersect clip).InRange := (Box.canonical_intersect _ _).toInRange
  rw [solidRuns, tetragonBox_eq ht, ok_bind, intersect_eq hbox hclip, ok_bind, lastY_eq hpart,
    ok_bind, gather_eq (g := fun y => (Tetragon.pairs (t.crossings y)).flatMap fun p =>
      Run.span clip p.1 p.2 y), ok_bind, sidesRuns_eq hclip hs ht]
  · rfl
  · intro y _
    rw [crossings_eq ht, ok_bind]
    exact gather_eq fun p _ => span_eq hclip hs _ _ _

end Runs

end Tetragons

end Machine

end Scanline

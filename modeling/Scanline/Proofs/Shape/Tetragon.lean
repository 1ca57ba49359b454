import Mathlib.Data.List.Sort
import Scanline.Proofs.Shape.Line
import Scanline.Shape.Tetragon
/-! The pixels of tetragons. The outline is that of the sides, and row by row the columns at which
sides cross the row are taken two by two. All of it lies within the box of the corners, so neither
rows nor columns that the clip leaves out are missed. -/

namespace Scanline.Tetragon

/-- The four sides. -/
def outline (t : Tetragon) : Set Point := {p | ∃ side ∈ t.sides, p ∈ Line.pixels side.1 side.2}

/-- The pixels between an odd crossing of their row and the next one. -/
def inner (t : Tetragon) : Set Point :=
  {p | ∃ q ∈ pairs (t.crossings p.y), q.1 ≤ p.x ∧ p.x ≤ q.2}

def solid (t : Tetragon) : Set Point := t.outline ∪ t.inner

/-- The smallest rectangle around the corners. -/
def around (t : Tetragon) : Set Point :=
  {p | least t.a.x t.b.x t.c.x t.d.x ≤ p.x ∧ p.x ≤ greatest t.a.x t.b.x t.c.x t.d.x ∧
    least t.a.y t.b.y t.c.y t.d.y ≤ p.y ∧ p.y ≤ greatest t.a.y t.b.y t.c.y t.d.y}

variable {clip : Box} {t : Tetragon} {p : Point} {side : Point × Point}

theorem mem_outline : p ∈ t.outline ↔ ∃ side ∈ t.sides, p ∈ Line.pixels side.1 side.2 := Iff.rfl

theorem mem_inner : p ∈ t.inner ↔
    ∃ q ∈ pairs (t.crossings p.y), q.1 ≤ p.x ∧ p.x ≤ q.2 := Iff.rfl

theorem mem_around : p ∈ t.around ↔
    least t.a.x t.b.x t.c.x t.d.x ≤ p.x ∧ p.x ≤ greatest t.a.x t.b.x t.c.x t.d.x ∧
      least t.a.y t.b.y t.c.y t.d.y ≤ p.y ∧ p.y ≤ greatest t.a.y t.b.y t.c.y t.d.y := Iff.rfl

theorem solid_subset_around_of_side (h : side ∈ t.sides) (hp : p ∈ Rect.solid side.1 side.2) :
    p ∈ t.around := by
  simp only [sides, List.mem_cons, List.not_mem_nil, or_false] at h
  rw [Rect.mem_solid] at hp
  rw [mem_around]
  simp only [least, greatest]
  rcases h with rfl | rfl | rfl | rfl
  all_goals dsimp only at hp; omega

theorem outline_subset_around (h : p ∈ t.outline) : p ∈ t.around := by
  obtain ⟨side, hside, hp⟩ := mem_outline.mp h
  exact solid_subset_around_of_side hside (Line.pixels_subset_solid hp)

theorem crosses_iff {y : Int} :
    crosses y side = true ↔ min side.1.y side.2.y ≤ y ∧ y < max side.1.y side.2.y := by
  simp only [crosses, Bool.and_eq_true, decide_eq_true_eq]
  omega

theorem crossing_eq (y : Int) : crossing y side = side.1.x +
    if side.2.y < side.1.y then
      Line.step (side.1.y - y) (side.2.x - side.1.x) (side.1.y - side.2.y)
    else Line.step (y - side.1.y) (side.2.x - side.1.x) (side.2.y - side.1.y) := by
  unfold crossing
  dsimp only
  by_cases h : side.2.y < side.1.y
  · rw [if_pos h, if_pos (by omega), Line.step]
    congr 2
    · ring
    · ring
  · rw [if_neg h, if_neg (by omega), Line.step]
    congr 2
    ring

theorem crossing_mem_solid {y : Int} (h : crosses y side = true) :
    (⟨crossing y side, y⟩ : Point) ∈ Rect.solid side.1 side.2 := by
  rw [crosses_iff] at h
  rw [Rect.mem_solid, crossing_eq]
  dsimp only
  split
  · have hs := Line.step_bounds (side.2.x - side.1.x) (show 0 ≤ side.1.y - y by omega)
      (show side.1.y - y ≤ side.1.y - side.2.y by omega)
    omega
  · have hs := Line.step_bounds (side.2.x - side.1.x) (show 0 ≤ y - side.1.y by omega)
      (show y - side.1.y ≤ side.2.y - side.1.y by omega)
    omega

theorem mem_crossings {x y : Int} :
    x ∈ t.crossings y ↔ ∃ side ∈ t.sides, crosses y side = true ∧ crossing y side = x := by
  simp only [crossings, List.mem_mergeSort, List.mem_map, List.mem_filter, and_assoc]

theorem crossings_sorted (t : Tetragon) (y : Int) : (t.crossings y).Pairwise (· ≤ ·) :=
  List.sortedLE_mergeSort.pairwise

theorem mem_of_mem_pairs {xs : List Int} {q : Int × Int} (h : q ∈ pairs xs) :
    q.1 ∈ xs ∧ q.2 ∈ xs := by
  fun_induction pairs xs with
  | case1 x y rest ih =>
    rcases List.mem_cons.mp h with rfl | h
    · exact ⟨List.mem_cons_self, List.mem_cons_of_mem _ List.mem_cons_self⟩
    · obtain ⟨h₁, h₂⟩ := ih h
      exact ⟨List.mem_cons_of_mem _ (List.mem_cons_of_mem _ h₁),
        List.mem_cons_of_mem _ (List.mem_cons_of_mem _ h₂)⟩
  | case2 xs => exact absurd h List.not_mem_nil

theorem le_of_mem_pairs {xs : List Int} (hs : xs.Pairwise (· ≤ ·)) {q : Int × Int}
    (h : q ∈ pairs xs) : q.1 ≤ q.2 := by
  fun_induction pairs xs with
  | case1 x y rest ih =>
    obtain ⟨hx, hrest⟩ := List.pairwise_cons.mp hs
    rcases List.mem_cons.mp h with rfl | h
    · exact hx y List.mem_cons_self
    · exact ih (List.pairwise_cons.mp hrest).2 h
  | case2 xs => exact absurd h List.not_mem_nil

theorem inner_subset_around (h : p ∈ t.inner) : p ∈ t.around := by
  obtain ⟨q, hq, hle, hle'⟩ := mem_inner.mp h
  obtain ⟨h₁, h₂⟩ := mem_of_mem_pairs hq
  obtain ⟨s₁, hs₁, hc₁, heq₁⟩ := mem_crossings.mp h₁
  obtain ⟨s₂, hs₂, hc₂, heq₂⟩ := mem_crossings.mp h₂
  have ha₁ := mem_around.mp (solid_subset_around_of_side hs₁ (crossing_mem_solid hc₁))
  have ha₂ := mem_around.mp (solid_subset_around_of_side hs₂ (crossing_mem_solid hc₂))
  rw [mem_around]
  dsimp only at ha₁ ha₂
  omega

theorem solid_subset_around (h : p ∈ t.solid) : p ∈ t.around :=
  h.elim outline_subset_around inner_subset_around

theorem mem_box (hp : p.OnScreen) : p ∈ t.box ↔ p ∈ t.around := by
  rw [box, Box.mem_ofEdges hp, mem_around]
  omega

theorem mem_points_outlineRuns :
    p ∈ Run.points (t.outlineRuns clip) ↔ p ∈ clip ∧ p ∈ t.outline := by
  simp only [outlineRuns, Run.mem_points_flatMap, Line.mem_points_runs, mem_outline]
  constructor
  · rintro ⟨side, hside, hc, hp⟩
    exact ⟨hc, side, hside, hp⟩
  · rintro ⟨hc, side, hside, hp⟩
    exact ⟨side, hside, hc, hp⟩

theorem mem_points_innerRuns (hclip : clip.OnScreen) :
    p ∈ Run.points ((intRange (t.box.intersect clip).y (t.box.intersect clip).lastY).flatMap
        fun y => (pairs (t.crossings y)).flatMap fun q => Run.span clip q.1 q.2 y) ↔
      p ∈ clip ∧ p ∈ t.inner := by
  simp only [Run.mem_points_flatMap, mem_intRange, Run.mem_points_span, mem_inner]
  constructor
  · rintro ⟨y, -, q, hq, hc, rfl, hle, hle'⟩
    have hord := le_of_mem_pairs (t.crossings_sorted p.y) hq
    exact ⟨hc, q, hq, by omega, by omega⟩
  · rintro ⟨hc, q, hq, hle, hle'⟩
    have hs := hclip p hc
    -- The rows that are passed over lie outside the box, which no pixel leaves.
    have hbox : p ∈ t.box.intersect clip := (Box.mem_intersect hs).mpr
      ⟨(mem_box hs).mpr (inner_subset_around (mem_inner.mpr ⟨q, hq, hle, hle'⟩)), hc⟩
    have hrow := Box.mem_iff.mp hbox
    exact ⟨p.y, by simp only [Box.lastY]; omega, q, hq, hc, rfl, by omega, by omega⟩

theorem mem_points_solidRuns (hclip : clip.OnScreen) :
    p ∈ Run.points (t.solidRuns clip) ↔ p ∈ clip ∧ p ∈ t.solid := by
  unfold solidRuns
  dsimp only
  rw [Run.mem_points_append, mem_points_innerRuns hclip, mem_points_outlineRuns, solid,
    Set.mem_union, ← and_or_left, or_comm]

end Scanline.Tetragon

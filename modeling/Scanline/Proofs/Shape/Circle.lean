import Scanline.Proofs.Box.Membership
import Scanline.Proofs.Shape.Runs
import Scanline.Shape.Circle
/-! The pixels of circles and disks. Whatever columns and rows are passed over for a clip, the runs
of a circle are the part of it in the clip, and no pixel is farther from the center than the
radius along either axis. -/

namespace Scanline.Circle

/-- The mirror images of all points of the octant. -/
def outline (c : Point) (r : Int) : Set Point :=
  {p | 0 ≤ r ∧ ∃ x, 0 ≤ x ∧ x ≤ octantEnd r ∧ p ∈ mirrored c x (octantHeight r x)}

/-- The rows of the disk. -/
def disk (c : Point) (r : Int) : Set Point :=
  {p | 0 ≤ r ∧ ((p.y - c.y).natAbs : Int) ≤ r ∧
    ((p.x - c.x).natAbs : Int) ≤ halfWidth r (octantEnd r) (p.y - c.y).natAbs}

variable {clip : Box} {c p : Point} {r : Int}

theorem mem_outline : p ∈ outline c r ↔
    0 ≤ r ∧ ∃ x, 0 ≤ x ∧ x ≤ octantEnd r ∧ p ∈ mirrored c x (octantHeight r x) := Iff.rfl

theorem mem_disk : p ∈ disk c r ↔ 0 ≤ r ∧ ((p.y - c.y).natAbs : Int) ≤ r ∧
    ((p.x - c.x).natAbs : Int) ≤ halfWidth r (octantEnd r) (p.y - c.y).natAbs := Iff.rfl

theorem lastWhere_bounds (test : Int → Bool) {lo hi : Int} (h : lo ≤ hi) :
    lo ≤ lastWhere test lo hi ∧ lastWhere test lo hi ≤ hi := by
  fun_induction lastWhere test lo hi with
  | case1 lo hi hlt mid ht ih =>
    have := ih (by omega)
    omega
  | case2 lo hi hlt mid ht ih =>
    have := ih (by omega)
    omega
  | case3 lo hi hlt => omega

theorem octantEnd_bounds (h : 0 ≤ r) : 0 ≤ octantEnd r ∧ octantEnd r ≤ r := by
  unfold octantEnd
  split
  · omega
  · exact lastWhere_bounds _ h

theorem octantHeight_bounds (h : 0 ≤ r) (x : Int) :
    0 ≤ octantHeight r x ∧ octantHeight r x ≤ r := by
  unfold octantHeight
  split
  · omega
  · exact lastWhere_bounds _ h

theorem halfWidth_bounds (h : 0 ≤ r) (last dy : Int) :
    0 ≤ halfWidth r last dy ∧ halfWidth r last dy ≤ r := by
  unfold halfWidth
  split
  · omega
  split
  · exact octantHeight_bounds h dy
  · exact lastWhere_bounds _ h

theorem offsets_nonneg (v lo hi most : Int) : 0 ≤ (offsets v lo hi most).1 := by
  unfold offsets
  split
  · dsimp only
    omega
  split
  · dsimp only
    omega
  · exact Int.le_refl 0

theorem offsets_iff {lo hi : Int} (h : lo ≤ hi) (v most d : Int) :
    (offsets v lo hi most).1 ≤ d ∧ d ≤ (offsets v lo hi most).2 ↔
      0 ≤ d ∧ d ≤ most ∧ ((lo ≤ v + d ∧ v + d ≤ hi) ∨ (lo ≤ v - d ∧ v - d ≤ hi)) := by
  unfold offsets
  split
  · dsimp only
    omega
  split
  · dsimp only
    omega
  · dsimp only
    omega

theorem mem_mirrored {x y : Int} : p ∈ mirrored c x y ↔
    ((p.x = c.x + x ∨ p.x = c.x - x) ∧ (p.y = c.y + y ∨ p.y = c.y - y)) ∨
      ((p.x = c.x + y ∨ p.x = c.x - y) ∧ (p.y = c.y + x ∨ p.y = c.y - x)) := by
  rcases p with ⟨px, py⟩
  simp only [mirrored, List.mem_append, List.mem_cons, Point.mk.injEq, List.not_mem_nil, or_false]
  split
  · simp only [List.mem_cons, Point.mk.injEq, List.not_mem_nil, or_false]
    grind
  · simp only [List.not_mem_nil, or_false]
    grind

theorem mem_columns (hx : clip.x ≤ clip.lastX) (hy : clip.y ≤ clip.lastY) {x : Int} :
    x ∈ columns clip c r ↔ 0 ≤ x ∧ x ≤ octantEnd r ∧
      ((clip.x ≤ c.x + x ∧ c.x + x ≤ clip.lastX) ∨ (clip.x ≤ c.x - x ∧ c.x - x ≤ clip.lastX) ∨
        (clip.y ≤ c.y + x ∧ c.y + x ≤ clip.lastY) ∨ (clip.y ≤ c.y - x ∧ c.y - x ≤ clip.lastY)) := by
  have hacross := offsets_iff hx c.x (octantEnd r) x
  have hdown := offsets_iff hy c.y (octantEnd r) x
  simp only [columns, List.mem_append, List.mem_filter, mem_intRange, Bool.not_eq_true',
    Bool.and_eq_false_iff, decide_eq_false_iff_not]
  rw [hacross, hdown]
  grind

theorem mem_points_outlineRuns (hr : 0 ≤ r) :
    p ∈ Run.points (outlineRuns clip c r) ↔ p ∈ clip ∧ p ∈ outline c r := by
  simp only [outlineRuns, Run.mem_points_flatMap, Run.mem_points_dot, mem_outline]
  constructor
  · rintro ⟨x, hx, q, hq, hc, rfl⟩
    have hc' := Box.mem_iff.mp hc
    rw [mem_columns (by simp only [Box.lastX]; omega) (by simp only [Box.lastY]; omega)] at hx
    exact ⟨hc, hr, x, hx.1, hx.2.1, hq⟩
  · rintro ⟨hc, -, x, hx, hx', hq⟩
    have hc' := Box.mem_iff.mp hc
    have hlast : clip.lastX = clip.right - 1 ∧ clip.lastY = clip.bottom - 1 := ⟨rfl, rfl⟩
    have hq' := mem_mirrored.mp hq
    exact ⟨x, (mem_columns (by omega) (by omega)).mpr (by omega), p, hq, hc, rfl⟩

/-- The two rows of a disk at one distance from its center. -/
theorem mem_points_rows {w dy : Int} (hw : 0 ≤ w) (hdy : 0 ≤ dy) :
    p ∈ Run.points (Run.span clip (c.x - w) (c.x + w) (c.y - dy) ++
        if dy ≠ 0 then Run.span clip (c.x - w) (c.x + w) (c.y + dy) else []) ↔
      p ∈ clip ∧ ((p.y - c.y).natAbs : Int) = dy ∧ ((p.x - c.x).natAbs : Int) ≤ w := by
  rw [Run.mem_points_append, Run.mem_points_span]
  by_cases hc : p ∈ clip
  · split
    · rw [Run.mem_points_span]
      simp only [hc, true_and]
      omega
    · simp only [hc, true_and, Run.not_mem_points_nil, or_false]
      omega
  · split
    · rw [Run.mem_points_span]
      simp only [hc, false_and, or_false]
    · simp only [hc, false_and, Run.not_mem_points_nil, or_false]

theorem mem_points_diskRuns (hr : 0 ≤ r) :
    p ∈ Run.points (diskRuns clip c r) ↔ p ∈ clip ∧ p ∈ disk c r := by
  have hoff : ∀ dy, p ∈ clip → ((offsets c.y clip.y clip.lastY r).1 ≤ dy ∧
      dy ≤ (offsets c.y clip.y clip.lastY r).2 ↔ 0 ≤ dy ∧ dy ≤ r ∧
        ((clip.y ≤ c.y + dy ∧ c.y + dy ≤ clip.lastY) ∨
          (clip.y ≤ c.y - dy ∧ c.y - dy ≤ clip.lastY))) := by
    intro dy hc
    have hc' := Box.mem_iff.mp hc
    exact offsets_iff (by simp only [Box.lastY]; omega) _ _ _
  simp only [diskRuns, Run.mem_points_flatMap, mem_intRange, mem_disk]
  constructor
  · rintro ⟨dy, hdy, hp⟩
    rw [mem_points_rows (halfWidth_bounds hr _ _).1 (Int.le_trans (offsets_nonneg _ _ _ _) hdy.1)]
      at hp
    obtain ⟨hc, heq, hw⟩ := hp
    rw [hoff dy hc] at hdy
    exact ⟨hc, hr, by omega, by rw [heq]; exact hw⟩
  · rintro ⟨hc, -, hy, hw⟩
    have hc' := Box.mem_iff.mp hc
    have hlast : clip.lastY = clip.bottom - 1 := rfl
    refine ⟨(p.y - c.y).natAbs, (hoff _ hc).mpr (by omega), ?_⟩
    exact (mem_points_rows (halfWidth_bounds hr _ _).1 (by omega)).mpr ⟨hc, rfl, hw⟩

theorem natAbs_le_of_mem_outline (h : p ∈ outline c r) :
    ((p.x - c.x).natAbs : Int) ≤ r ∧ ((p.y - c.y).natAbs : Int) ≤ r := by
  obtain ⟨hr, x, hx, hx', hp⟩ := mem_outline.mp h
  have hend := octantEnd_bounds hr
  have hheight := octantHeight_bounds hr x
  have hp' := mem_mirrored.mp hp
  omega

theorem natAbs_le_of_mem_disk (h : p ∈ disk c r) :
    ((p.x - c.x).natAbs : Int) ≤ r ∧ ((p.y - c.y).natAbs : Int) ≤ r := by
  obtain ⟨hr, hy, hx⟩ := mem_disk.mp h
  have hw := halfWidth_bounds hr (octantEnd r) (p.y - c.y).natAbs
  omega

theorem mem_box (hp : p.OnScreen) (hr : 0 ≤ r) :
    p ∈ box c r ↔ ((p.x - c.x).natAbs : Int) ≤ r ∧ ((p.y - c.y).natAbs : Int) ≤ r := by
  rw [box, if_neg (by omega), Box.mem_ofEdges hp]
  omega

end Scanline.Circle

import Scanline.Proofs.Shape.Circle
import Scanline.Proofs.Shape.Tetragon
import Scanline.Shape.Basic
/-! The pixels of shapes. A shape is a set of points whatever the clip, its box holds all of them
that a buffer can have, and its runs inside a clip are the points of both. -/

namespace Scanline.Shape

def pixels : Shape → Set Point
  | point p => {p}
  | circle c r => Circle.outline c r
  | disk c r => Circle.disk c r
  | hline x0 x1 y => Rect.solid ⟨x0, y⟩ ⟨x1, y⟩
  | vline x y0 y1 => Rect.solid ⟨x, y0⟩ ⟨x, y1⟩
  | line a b => Line.pixels a b
  | rect a b => Rect.outline a b
  | solidRect a b => Rect.solid a b
  | tetragon t => t.outline
  | solidTetragon t => t.solid

/-- What a shape draws on a plane without edges: whatever it draws in some clip. -/
def onPlane (s : Shape) : Set Point := {p | ∃ clip, p ∈ Run.points (s.runsIn clip)}

variable {clip : Box} {s : Shape} {p : Point}

theorem onPlane_eq {S : Set Point}
    (h : ∀ clip p, p ∈ Run.points (s.runsIn clip) ↔ p ∈ clip ∧ p ∈ S) : s.onPlane = S := by
  ext p
  constructor
  · rintro ⟨clip, hp⟩
    exact ((h clip p).mp hp).2
  · intro hp
    have hcell : p ∈ (⟨p.x, p.y, 1, 1⟩ : Box) := by
      rw [Box.mem_iff]
      simp only [Box.right, Box.bottom]
      omega
    exact ⟨_, (h _ p).mpr ⟨hcell, hp⟩⟩

theorem onPlane_circle {c : Point} {r : Int} (hr : 0 ≤ r) :
    (circle c r).onPlane = Circle.outline c r :=
  onPlane_eq fun _ _ => Circle.mem_points_outlineRuns hr

theorem onPlane_disk {c : Point} {r : Int} (hr : 0 ≤ r) : (disk c r).onPlane = Circle.disk c r :=
  onPlane_eq fun _ _ => Circle.mem_points_diskRuns hr

theorem onPlane_line (a b : Point) : (line a b).onPlane = Line.pixels a b :=
  onPlane_eq fun _ _ => Line.mem_points_runs

theorem pixels_subset_box (hs : p.OnScreen) (h : p ∈ s.pixels) : p ∈ s.box := by
  cases s with
  | point q =>
    rw [Set.mem_singleton_iff.mp h, box, Box.mem_ofSize]
    omega
  | circle c r =>
    exact (Circle.mem_box hs (Circle.mem_outline.mp h).1).mpr (Circle.natAbs_le_of_mem_outline h)
  | disk c r =>
    exact (Circle.mem_box hs (Circle.mem_disk.mp h).1).mpr (Circle.natAbs_le_of_mem_disk h)
  | hline x0 x1 y => exact (Rect.mem_ofCorners_iff hs).mpr h
  | vline x y0 y1 => exact (Rect.mem_ofCorners_iff hs).mpr h
  | line a b => exact (Rect.mem_ofCorners_iff hs).mpr (Line.pixels_subset_solid h)
  | rect a b => exact (Rect.mem_ofCorners_iff hs).mpr h.1
  | solidRect a b => exact (Rect.mem_ofCorners_iff hs).mpr h
  | tetragon t => exact (Tetragon.mem_box hs).mpr (Tetragon.outline_subset_around h)
  | solidTetragon t => exact (Tetragon.mem_box hs).mpr (Tetragon.solid_subset_around h)

theorem radius_nonneg {c : Point} {r : Int} (h : ¬((Circle.box c r).intersect clip).isEmpty) :
    0 ≤ r := by
  by_contra hr
  rw [Circle.box, if_pos (Int.not_le.mp hr), Box.intersect, Box.isEmpty_empty] at h
  exact h rfl

theorem mem_points_runsIn (hclip : clip.OnScreen) (h : ¬(s.box.intersect clip).isEmpty) :
    p ∈ Run.points (s.runsIn clip) ↔ p ∈ clip ∧ p ∈ s.pixels := by
  cases s with
  | point q => exact Run.mem_points_dot
  | circle c r => exact Circle.mem_points_outlineRuns (radius_nonneg h)
  | disk c r => exact Circle.mem_points_diskRuns (radius_nonneg h)
  | hline x0 x1 y =>
    rw [runsIn, pixels, Run.mem_points_span, Rect.mem_solid]
    exact and_congr_right fun _ => by dsimp only; omega
  | vline x y0 y1 =>
    rw [runsIn, pixels, Run.mem_points_column, Rect.mem_solid]
    exact and_congr_right fun _ => by dsimp only; omega
  | line a b => exact Line.mem_points_runs
  | rect a b => exact Rect.mem_points_outlineRuns
  | solidRect a b => exact Rect.mem_points_solidRuns hclip
  | tetragon t => exact Tetragon.mem_points_outlineRuns
  | solidTetragon t => exact Tetragon.mem_points_solidRuns hclip

/-- Nothing is lost when a shape whose box misses the clip is passed over. -/
theorem mem_points_runs (hclip : clip.OnScreen) :
    p ∈ Run.points (s.runs clip) ↔ p ∈ clip ∧ p ∈ s.pixels := by
  unfold runs
  split
  · rename_i h
    refine iff_of_false Run.not_mem_points_nil ?_
    rintro ⟨hc, hp⟩
    have hbox := hclip.mem_intersect.mpr ⟨pixels_subset_box (hclip p hc) hp, hc⟩
    exact Box.not_mem_of_isEmpty h hbox
  · rename_i h
    exact mem_points_runsIn hclip h

end Scanline.Shape

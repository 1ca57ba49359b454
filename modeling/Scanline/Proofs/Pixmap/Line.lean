import Scanline.Proofs.Pixmap.Draw
import Scanline.Proofs.Shape.Slope
/-! Lines in pixmaps. A line is one set of pixels, whichever of its ends comes first, and any clip
shows its part of that set. -/

namespace Scanline.Pixmap

/-- A line holds both ends, stays in the rectangle around them and has one pixel for each step along
its longer axis, where the exact line is rounded half up. -/
theorem line_exact (a b : Point) :
    a ∈ (Shape.line a b).onPlane ∧ b ∈ (Shape.line a b).onPlane ∧
    (Shape.line a b).onPlane ⊆ Rect.solid a b ∧
    ((b.y - a.y).natAbs ≤ (b.x - a.x).natAbs →
      Line.Traces (Shape.line a b).onPlane (fun x y => ⟨x, y⟩) a.x a.y b.x b.y) ∧
    ((b.x - a.x).natAbs < (b.y - a.y).natAbs →
      Line.Traces (Shape.line a b).onPlane (fun y x => ⟨x, y⟩) a.y a.x b.y b.x) ∧
    (Shape.line b a).onPlane = (Shape.line a b).onPlane ∧
    ∀ p : Pixmap, p.Valid →
      p.Writes (.line a b) {d | d ∈ p.clipRect ∧ d ∈ (Shape.line a b).onPlane} := by
  rw [Shape.onPlane_line, Shape.onPlane_line]
  refine ⟨Line.left_mem_pixels a b, Line.right_mem_pixels a b, fun _ => Line.pixels_subset_solid,
    Line.traces_flat, Line.traces_steep, Line.pixels_comm b a, ?_⟩
  intro p hp
  exact hp.writes (.line a b)

theorem line_exact_steep :
    (∃! x, (⟨x, 1⟩ : Point) ∈ (Shape.line ⟨2, -1⟩ ⟨0, 3⟩).onPlane) ∧
    (⟨1, 1⟩ : Point) ∈ (Shape.line ⟨2, -1⟩ ⟨0, 3⟩).onPlane ∧
    ∃ q, sample.draw (.line ⟨2, -1⟩ ⟨0, 3⟩) 7 = .ok (⟨0, 0, 2, 2⟩, q) ∧ q.get ⟨1, 1⟩ = .ok 3 := by
  obtain ⟨-, -, -, -, hsteep, -, hwrites⟩ := line_exact ⟨2, -1⟩ ⟨0, 3⟩
  have htraces := hsteep (by decide)
  have hsingle := htraces.single 1 (by decide) (by decide)
  obtain ⟨x, hx⟩ := hsingle.exists
  have hone : x = 1 := by
    rw [htraces.rounded 1 x hx]
    norm_num [Line.valueAt, halfUp]
  subst hone
  obtain ⟨q, hq, hpainted⟩ := (hwrites sample sample_valid).draw 7
  exact ⟨hsingle, hx, q, hq, hpainted.get_painted sample_valid ⟨by decide, hx⟩ (by decide)⟩

end Scanline.Pixmap

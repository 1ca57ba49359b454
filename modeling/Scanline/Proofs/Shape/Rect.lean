import Scanline.Proofs.Box.Membership
import Scanline.Proofs.Shape.Runs
import Scanline.Shape.Rect
/-! The pixels of rectangles, and that their runs are the part of them in the clip. -/

namespace Scanline.Rect

def solid (a b : Point) : Set Point :=
  {p | min a.x b.x ≤ p.x ∧ p.x ≤ max a.x b.x ∧ min a.y b.y ≤ p.y ∧ p.y ≤ max a.y b.y}

/-- The points of the rectangle in the rows and columns of its corners. -/
def outline (a b : Point) : Set Point :=
  {p | p ∈ solid a b ∧ (p.x = a.x ∨ p.x = b.x ∨ p.y = a.y ∨ p.y = b.y)}

variable {clip : Box} {a b p : Point}

theorem mem_solid : p ∈ solid a b ↔
    min a.x b.x ≤ p.x ∧ p.x ≤ max a.x b.x ∧ min a.y b.y ≤ p.y ∧ p.y ≤ max a.y b.y := Iff.rfl

theorem mem_outline : p ∈ outline a b ↔
    p ∈ solid a b ∧ (p.x = a.x ∨ p.x = b.x ∨ p.y = a.y ∨ p.y = b.y) := Iff.rfl

theorem solid_comm (a b : Point) : solid a b = solid b a := by
  ext p
  rw [mem_solid, mem_solid]
  omega

theorem mem_ofCorners_iff (hp : p.OnScreen) : p ∈ Box.ofCorners a b ↔ p ∈ solid a b :=
  Box.mem_ofCorners hp

theorem mem_points_outlineRuns :
    p ∈ Run.points (outlineRuns clip a b) ↔ p ∈ clip ∧ p ∈ outline a b := by
  simp only [outlineRuns, Run.mem_points_append, Run.mem_points_span, outline, mem_solid,
    Set.mem_ofPred_eq]
  by_cases hc : p ∈ clip
  · split
    · simp only [Run.mem_points_append, Run.mem_points_column, hc, true_and]
      grind
    · simp only [Run.not_mem_points_nil, hc, true_and, or_false]
      grind
  · split
    · simp only [Run.mem_points_append, Run.mem_points_column, hc, false_and, or_false]
    · simp only [Run.not_mem_points_nil, hc, false_and, or_false]

theorem mem_points_solidRuns (hclip : clip.OnScreen) :
    p ∈ Run.points (solidRuns clip a b) ↔ p ∈ clip ∧ p ∈ solid a b := by
  have hpart : p ∈ Run.points (solidRuns clip a b) ↔ p ∈ (Box.ofCorners a b).intersect clip := by
    simp only [solidRuns, Run.mem_points_flatMap, mem_intRange, Run.mem_points_span]
    constructor
    · rintro ⟨y, -, hp, -⟩
      exact hp
    · intro hp
      have hp' := Box.mem_iff.mp hp
      exact ⟨p.y, by simp only [Box.lastY]; omega, hp, rfl, by simp only [Box.lastX]; omega⟩
  rw [hpart, hclip.mem_intersect, and_comm]
  exact and_congr_right fun hc => mem_ofCorners_iff (hclip p hc)

end Scanline.Rect

import Mathlib.Tactic.Ring
import Scanline.Proofs.Shape.Rect
import Scanline.Shape.Line
/-! The pixels of lines. A line is given without its clip as one pixel for each step along the
longer axis, it lies in the rectangle of its ends, and its runs are the part of it in the clip. -/

namespace Scanline.Line

/-- One pixel in each column from `a` to `b`. -/
def flat (a b : Point) : Set Point :=
  {p | a.x ≤ p.x ∧ p.x ≤ b.x ∧ p.y = a.y + step (p.x - a.x) (b.y - a.y) (b.x - a.x)}

def steep (a b : Point) : Set Point :=
  {p | a.y ≤ p.y ∧ p.y ≤ b.y ∧ p.x = a.x + step (p.y - a.y) (b.x - a.x) (b.y - a.y)}

def pixels (a b : Point) : Set Point :=
  if isFlat a b then (if a.x > b.x then flat b a else flat a b)
  else if a.y > b.y then steep b a else steep a b

variable {clip : Box} {a b p : Point} {i minor major : Int}

theorem mem_flat : p ∈ flat a b ↔
    a.x ≤ p.x ∧ p.x ≤ b.x ∧ p.y = a.y + step (p.x - a.x) (b.y - a.y) (b.x - a.x) := Iff.rfl

theorem mem_steep : p ∈ steep a b ↔
    a.y ≤ p.y ∧ p.y ≤ b.y ∧ p.x = a.x + step (p.y - a.y) (b.x - a.x) (b.y - a.y) := Iff.rfl

theorem isFlat_iff : isFlat a b = true ↔ (b.y - a.y).natAbs ≤ (b.x - a.x).natAbs := by
  simp [isFlat]

theorem step_le_iff {k : Int} (h : 0 < major) :
    step i minor major ≤ k ↔ 2 * (i * minor) < 2 * (k * major) + major := by
  rw [step, ← Int.lt_add_one_iff, Int.ediv_lt_iff_lt_mul (by omega), Int.mul_assoc,
    show (k + 1) * (2 * major) = 2 * (k * major) + 2 * major by ring]
  omega

theorem le_step_iff {k : Int} (h : 0 < major) :
    k ≤ step i minor major ↔ 2 * (k * major) ≤ 2 * (i * minor) + major := by
  rw [step, Int.le_ediv_iff_mul_le (by omega), Int.mul_assoc,
    show k * (2 * major) = 2 * (k * major) by ring]

theorem step_bounds (minor : Int) (hi : 0 ≤ i) (hi' : i ≤ major) :
    min 0 minor ≤ step i minor major ∧ step i minor major ≤ max 0 minor := by
  rcases Int.le_iff_lt_or_eq.mp (Int.le_trans hi hi') with hpos | hzero
  · rw [le_step_iff hpos, step_le_iff hpos]
    rcases Int.le_total 0 minor with hm | hm
    · have h₀ := Int.mul_le_mul_of_nonneg_right hi hm
      have h₁ := Int.mul_le_mul_of_nonneg_right hi' hm
      rw [Int.min_eq_left hm, Int.max_eq_right hm, Int.mul_comm minor]
      omega
    · have h₀ := Int.mul_le_mul_of_nonpos_right hi hm
      have h₁ := Int.mul_le_mul_of_nonpos_right hi' hm
      rw [Int.min_eq_right hm, Int.max_eq_left hm, Int.mul_comm minor]
      omega
  · rw [step, ← hzero]
    simp only [Int.mul_zero, Int.ediv_zero]
    omega

theorem step_zero (hi : 0 ≤ i) (hi' : i ≤ major) : step i 0 major = 0 := by
  have h := step_bounds 0 hi hi'
  omega

theorem flat_subset_solid (h : p ∈ flat a b) : p ∈ Rect.solid a b := by
  rw [mem_flat] at h
  have hs := step_bounds (b.y - a.y) (show 0 ≤ p.x - a.x by omega)
    (show p.x - a.x ≤ b.x - a.x by omega)
  rw [Rect.mem_solid]
  omega

theorem steep_subset_solid (h : p ∈ steep a b) : p ∈ Rect.solid a b := by
  rw [mem_steep] at h
  have hs := step_bounds (b.x - a.x) (show 0 ≤ p.y - a.y by omega)
    (show p.y - a.y ≤ b.y - a.y by omega)
  rw [Rect.mem_solid]
  omega

theorem pixels_subset_solid (h : p ∈ pixels a b) : p ∈ Rect.solid a b := by
  unfold pixels at h
  split at h <;> split at h
  · rw [Rect.solid_comm]
    exact flat_subset_solid h
  · exact flat_subset_solid h
  · rw [Rect.solid_comm]
    exact steep_subset_solid h
  · exact steep_subset_solid h

theorem mem_pixels_of_y_eq (h : a.y = b.y) : p ∈ pixels a b ↔ p ∈ Rect.solid a b := by
  refine ⟨pixels_subset_solid, fun hp => ?_⟩
  rw [Rect.mem_solid] at hp
  rw [pixels, if_pos (isFlat_iff.mpr (by omega))]
  split
  · rw [mem_flat, h, Int.sub_self, step_zero (by omega) (by omega)]
    omega
  · rw [mem_flat, h, Int.sub_self, step_zero (by omega) (by omega)]
    omega

theorem mem_pixels_of_x_eq (h : a.x = b.x) : p ∈ pixels a b ↔ p ∈ Rect.solid a b := by
  by_cases hy : a.y = b.y
  · exact mem_pixels_of_y_eq hy
  refine ⟨pixels_subset_solid, fun hp => ?_⟩
  rw [Rect.mem_solid] at hp
  rw [pixels, if_neg (fun hf => by rw [isFlat_iff] at hf; omega)]
  split
  · rw [mem_steep, h, Int.sub_self, step_zero (by omega) (by omega)]
    omega
  · rw [mem_steep, h, Int.sub_self, step_zero (by omega) (by omega)]
    omega

theorem mem_points_flat :
    p ∈ Run.points ((intRange (max a.x clip.x) (min b.x clip.lastX)).flatMap fun x =>
        Run.dot clip x (a.y + step (x - a.x) (b.y - a.y) (b.x - a.x))) ↔
      p ∈ clip ∧ p ∈ flat a b := by
  simp only [Run.mem_points_flatMap, mem_intRange, Run.mem_points_dot, mem_flat]
  constructor
  · rintro ⟨x, hx, hc, rfl⟩
    exact ⟨hc, by dsimp only; omega, by dsimp only; omega, rfl⟩
  · rintro ⟨hc, hl, hr, hy⟩
    have hc' := Box.mem_iff.mp hc
    exact ⟨p.x, by simp only [Box.lastX]; omega, hc, by rw [← hy]⟩

theorem mem_points_steep :
    p ∈ Run.points ((intRange (max a.y clip.y) (min b.y clip.lastY)).flatMap fun y =>
        Run.dot clip (a.x + step (y - a.y) (b.x - a.x) (b.y - a.y)) y) ↔
      p ∈ clip ∧ p ∈ steep a b := by
  simp only [Run.mem_points_flatMap, mem_intRange, Run.mem_points_dot, mem_steep]
  constructor
  · rintro ⟨y, hy, hc, rfl⟩
    exact ⟨hc, by dsimp only; omega, by dsimp only; omega, rfl⟩
  · rintro ⟨hc, hl, hr, hx⟩
    have hc' := Box.mem_iff.mp hc
    exact ⟨p.y, by simp only [Box.lastY]; omega, hc, by rw [← hx]⟩

theorem mem_points_runs : p ∈ Run.points (runs clip a b) ↔ p ∈ clip ∧ p ∈ pixels a b := by
  unfold runs
  split
  · rename_i hy
    rw [Run.mem_points_span, mem_pixels_of_y_eq hy, Rect.mem_solid]
    exact and_congr_right fun _ => by omega
  split
  · rename_i hx
    rw [Run.mem_points_column, mem_pixels_of_x_eq hx, Rect.mem_solid]
    exact and_congr_right fun _ => by omega
  split
  · rename_i hf
    rw [pixels, if_pos hf]
    by_cases h : a.x > b.x
    · rw [if_pos h, if_pos h]
      exact mem_points_flat
    · rw [if_neg h, if_neg h]
      exact mem_points_flat
  · rename_i hf
    rw [pixels, if_neg hf]
    by_cases h : a.y > b.y
    · rw [if_pos h, if_pos h]
      exact mem_points_steep
    · rw [if_neg h, if_neg h]
      exact mem_points_steep

end Scanline.Line

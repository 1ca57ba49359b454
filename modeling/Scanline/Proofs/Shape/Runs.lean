import Mathlib.Data.Set.Insert
import Scanline.Run
/-! The points of runs. What a span, a dot or a column leaves inside the clip is the part of it in
the clip, for every clip. -/

namespace Scanline.Run

def points (rs : List Run) : Set Point := {c | ∃ r ∈ rs, c ∈ r}

section Lists
variable {c : Point} {r : Run} {rs rs' : List Run}

@[simp] theorem not_mem_points_nil : c ∉ points [] := by simp [points]

@[simp] theorem mem_points_cons : c ∈ points (r :: rs) ↔ c ∈ r ∨ c ∈ points rs := by
  simp [points]

@[simp] theorem mem_points_append :
    c ∈ points (rs ++ rs') ↔ c ∈ points rs ∨ c ∈ points rs' := by
  simp only [points, Set.mem_ofPred_eq, List.mem_append]
  constructor
  · rintro ⟨r, hr | hr, hc⟩
    · exact Or.inl ⟨r, hr, hc⟩
    · exact Or.inr ⟨r, hr, hc⟩
  · rintro (⟨r, hr, hc⟩ | ⟨r, hr, hc⟩)
    · exact ⟨r, Or.inl hr, hc⟩
    · exact ⟨r, Or.inr hr, hc⟩

@[simp] theorem mem_points_flatMap {α : Type} {xs : List α} {f : α → List Run} :
    c ∈ points (xs.flatMap f) ↔ ∃ x ∈ xs, c ∈ points (f x) := by
  simp only [points, Set.mem_ofPred_eq, List.mem_flatMap]
  constructor
  · rintro ⟨r, ⟨x, hx, hr⟩, hc⟩
    exact ⟨x, hx, r, hr, hc⟩
  · rintro ⟨x, hx, r, hr, hc⟩
    exact ⟨r, ⟨x, hx, hr⟩, hc⟩

end Lists

section Pieces
variable {clip : Box} {c : Point}

@[simp] theorem mem_points_span {x0 x1 y : Int} :
    c ∈ points (span clip x0 x1 y) ↔
      c ∈ clip ∧ c.y = y ∧ min x0 x1 ≤ c.x ∧ c.x ≤ max x0 x1 := by
  have hx : clip.lastX = clip.right - 1 := rfl
  have hy : clip.lastY = clip.bottom - 1 := rfl
  rw [Box.mem_iff, span]
  dsimp only
  split
  · simp only [not_mem_points_nil, false_iff]
    omega
  split
  · simp only [mem_points_cons, not_mem_points_nil, or_false, mem_iff]
    omega
  · simp only [not_mem_points_nil, false_iff]
    omega

@[simp] theorem mem_points_dot {x y : Int} :
    c ∈ points (dot clip x y) ↔ c ∈ clip ∧ c = ⟨x, y⟩ := by
  rcases c with ⟨cx, cy⟩
  simp only [dot, Box.mem_iff, Point.mk.injEq]
  split
  · simp only [mem_points_cons, not_mem_points_nil, or_false, mem_iff]
    omega
  · simp only [not_mem_points_nil, false_iff]
    omega

@[simp] theorem mem_points_column {x y0 y1 : Int} :
    c ∈ points (column clip x y0 y1) ↔
      c ∈ clip ∧ c.x = x ∧ min y0 y1 ≤ c.y ∧ c.y ≤ max y0 y1 := by
  have hx : clip.lastX = clip.right - 1 := rfl
  have hy : clip.lastY = clip.bottom - 1 := rfl
  rw [Box.mem_iff, column]
  split
  · simp only [not_mem_points_nil, false_iff]
    omega
  · simp only [points, List.mem_map, mem_intRange, Set.mem_ofPred_eq]
    constructor
    · rintro ⟨r, ⟨y, hy, rfl⟩, hc⟩
      rw [mem_iff] at hc
      dsimp only at hc
      omega
    · intro hc
      exact ⟨⟨c.y, x, x⟩, ⟨c.y, by omega, rfl⟩, mem_iff.mpr (by dsimp only; omega)⟩

end Pieces

end Scanline.Run

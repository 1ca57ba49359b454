import Scanline.Proofs.Box.Membership
import Scanline.Proofs.Machine.Boxes
import Scanline.Run
/-! Runs in machine arithmetic. They are cut to the clip in 64 bits, and the rows and columns that
are left go into 32 bits without a sign, in which pixels are written. -/

namespace Scanline.Machine

/-- The pixels of a row whose coordinates have gone into 32 bits. -/
def run (y first last : Int) : Except Failure Run := return ⟨← u32 y, ← u32 first, ← u32 last⟩

def dot (clip : Box) (x y : Int) : Except Failure (List Run) := do
  if clip.x ≤ x ∧ x ≤ (← lastX clip) ∧ clip.y ≤ y ∧ y ≤ (← lastY clip) then
    return [← run y x x]
  else return []

def span (clip : Box) (x0 x1 y : Int) : Except Failure (List Run) := do
  if y < clip.y ∨ y > (← lastY clip) then return []
  let first := max (min x0 x1) clip.x
  let last := min (max x0 x1) (← lastX clip)
  if first ≤ last then return [← run y first last] else return []

def column (clip : Box) (x y0 y1 : Int) : Except Failure (List Run) := do
  if x < clip.x ∨ x > (← lastX clip) then return []
  gather (fun y => return [← run y x x])
    (intRange (max (min y0 y1) clip.y) (min (max y0 y1) (← lastY clip)))

variable {clip : Box} (hr : clip.InRange) (hs : clip.OnScreen)
include hs

theorem run_eq {y first last : Int} (hfirst : ⟨first, y⟩ ∈ clip) (hlast : ⟨last, y⟩ ∈ clip) :
    run y first last = .ok ⟨y, first, last⟩ := by
  obtain ⟨hx, hx', hy, hy'⟩ := hs _ hfirst
  obtain ⟨hx₂, hx₂', -⟩ := hs _ hlast
  unfold coordMax at hx' hy' hx₂'
  dsimp only at *
  rw [run, u32_eq hy (by omega), ok_bind, u32_eq hx (by omega), ok_bind, u32_eq hx₂ (by omega)]
  rfl

include hr

theorem dot_eq (x y : Int) : dot clip x y = .ok (Run.dot clip x y) := by
  have hlast : clip.lastX = clip.right - 1 ∧ clip.lastY = clip.bottom - 1 := ⟨rfl, rfl⟩
  rw [dot, lastX_eq hr, ok_bind, lastY_eq hr, ok_bind, Run.dot]
  by_cases h : (⟨x, y⟩ : Point) ∈ clip
  · obtain ⟨hx, hx', hy, hy'⟩ := Box.mem_iff.mp h
    dsimp only at hx hx' hy hy'
    rw [if_pos h, if_pos (by omega), run_eq hs h h]
    rfl
  · rw [if_neg h, if_neg]
    · rfl
    · intro hin
      exact h (Box.mem_iff.mpr (by dsimp only; omega))

theorem span_eq (x0 x1 y : Int) : span clip x0 x1 y = .ok (Run.span clip x0 x1 y) := by
  have hlast : clip.lastX = clip.right - 1 ∧ clip.lastY = clip.bottom - 1 := ⟨rfl, rfl⟩
  unfold span Run.span
  rw [lastY_eq hr, ok_bind, lastX_eq hr]
  split
  · rfl
  dsimp only [ok_bind]
  split
  · rw [run_eq hs (Box.mem_iff.mpr (by dsimp only; omega)) (Box.mem_iff.mpr (by dsimp only; omega))]
    rfl
  · rfl

theorem column_eq (x y0 y1 : Int) : column clip x y0 y1 = .ok (Run.column clip x y0 y1) := by
  have hlast : clip.lastX = clip.right - 1 ∧ clip.lastY = clip.bottom - 1 := ⟨rfl, rfl⟩
  unfold column Run.column
  rw [lastX_eq hr, ok_bind, lastY_eq hr]
  split
  · rfl
  rw [ok_bind, List.map_eq_flatMap]
  apply gather_eq
  intro y hy
  rw [mem_intRange] at hy
  have hmem : (⟨x, y⟩ : Point) ∈ clip := Box.mem_iff.mpr (by dsimp only; omega)
  rw [run_eq hs hmem hmem]
  rfl

end Scanline.Machine

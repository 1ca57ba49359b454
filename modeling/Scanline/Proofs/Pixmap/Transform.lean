import Mathlib.Data.Set.Function
import Scanline.Proofs.Pixmap.Oriented
import Scanline.Proofs.Shape.Rect
/-! Oriented boxes and rectangles, whatever their corners. A mirrored coordinate is clamped, but it
stays on its side of every coordinate that is shown, so that the rectangle between two corners in
the buffer shows the points of the oriented one, and likewise for boxes. -/

namespace Scanline

namespace Rect
variable {swap : Bool} {a b p : Point}

theorem mem_solid_turn : p.turn swap ∈ solid (a.turn swap) (b.turn swap) ↔ p ∈ solid a b := by
  cases swap with
  | false => rfl
  | true =>
    simp only [mem_solid, Point.turn, if_true]
    omega

theorem mem_outline_turn :
    p.turn swap ∈ outline (a.turn swap) (b.turn swap) ↔ p ∈ outline a b := by
  rw [mem_outline, mem_outline, mem_solid_turn]
  cases swap with
  | false => rfl
  | true =>
    simp only [Point.turn, if_true]
    tauto

end Rect

namespace Frame
variable {f : Frame} {a b p : Point} (hw : (f.width : Int) ≤ coordMax)
  (hh : (f.height : Int) ≤ coordMax)
include hw hh

section Flip
variable (hp : p ∈ f.bounds)
include hp

theorem flip_mem_solid : f.flip p ∈ Rect.solid (f.flip a) (f.flip b) ↔ p ∈ Rect.solid a b := by
  obtain ⟨hx, hx', hy, hy'⟩ := mem_bounds.mp hp
  simp only [Rect.mem_solid, flip]
  rw [← and_assoc, clampedReflect_between_iff hw hx hx', clampedReflect_between_iff hh hy hy',
    and_assoc]

theorem flip_mem_outline :
    f.flip p ∈ Rect.outline (f.flip a) (f.flip b) ↔ p ∈ Rect.outline a b := by
  obtain ⟨hx, hx', hy, hy'⟩ := mem_bounds.mp hp
  rw [Rect.mem_outline, Rect.mem_outline, flip_mem_solid hw hh hp]
  simp only [flip, clampedReflect_eq_iff hw hx hx', clampedReflect_eq_iff hh hy hy']

end Flip

theorem transformPoint_bijOn :
    Set.BijOn f.transformPoint {p | p ∈ f.orientedBounds} {c | c ∈ f.bounds} := by
  refine ⟨?_, ?_, ?_⟩
  · intro p hp
    exact (transformPoint_mem_iff hw hh).mpr hp
  · intro p hp q _ heq
    exact (transformPoint_eq_iff hw hh hp).mp heq
  · intro c hc
    exact ⟨f.restorePoint c, restorePoint_mem_iff.mpr hc, transformPoint_restorePoint hw hh hc⟩

variable (hp : p ∈ f.orientedBounds)
include hp

theorem transformPoint_mem_solid :
    f.transformPoint p ∈ Rect.solid (f.transformPoint a) (f.transformPoint b) ↔
      p ∈ Rect.solid a b :=
  (flip_mem_solid hw hh (mem_orientedBounds.mp hp)).trans Rect.mem_solid_turn

theorem transformPoint_mem_outline :
    f.transformPoint p ∈ Rect.outline (f.transformPoint a) (f.transformPoint b) ↔
      p ∈ Rect.outline a b :=
  (flip_mem_outline hw hh (mem_orientedBounds.mp hp)).trans Rect.mem_outline_turn

theorem transformPoint_mem_transformBox {b : Box} :
    f.transformPoint p ∈ f.transformBox b ↔ p ∈ b := by
  have hon := onScreen_of_mem hw hh ((transformPoint_mem_iff hw hh).mpr hp)
  obtain ⟨hx, hx', hy, hy'⟩ := (onScreen_of_mem hw hh (mem_orientedBounds.mp hp)).of_turn
  rw [transformBox]
  split
  · rename_i hempty
    exact iff_of_false (Box.not_mem_empty _) (Box.not_mem_of_isEmpty hempty)
  · rename_i hne
    obtain ⟨hpos, hpos'⟩ := Box.isEmpty_eq_false_iff.mp (Bool.eq_false_iff.mpr hne)
    rw [Rect.mem_ofCorners_iff hon, transformPoint_mem_solid hw hh hp, Rect.mem_solid, Box.mem_iff]
    -- The last corner may be clamped, but only past every point that is shown.
    simp only [Box.lastX, Box.lastY, Box.right, Box.bottom, clampCoord, coordMin, coordMax] at *
    omega

end Frame

namespace Pixmap

/-- The points that a pixmap shows and those of its buffer are in one to one correspondence, which
takes no other point into the buffer, and each box shows exactly the points that it holds. -/
theorem orientation_exact {p : Pixmap} (hp : p.Valid) :
    Set.BijOn p.transformPoint {c | c ∈ p.orientedBounds} {c | c ∈ p.bounds} ∧
    (∀ c, c ∉ p.orientedBounds → p.transformPoint c ∉ p.bounds) ∧
    ∀ (b : Box), ∀ c ∈ p.orientedBounds, c ∈ b ↔ p.transformPoint c ∈ p.transformBox b := by
  refine ⟨Frame.transformPoint_bijOn hp.width_le hp.height_le, ?_, ?_⟩
  · intro c hc hmem
    exact hc ((Frame.transformPoint_mem_iff hp.width_le hp.height_le).mp hmem)
  · intro b c hc
    exact (Frame.transformPoint_mem_transformBox hp.width_le hp.height_le hc).symm

theorem orientation_exact_sample :
    (∃ c ∈ sample16.orientedBounds, sample16.transformPoint c = ⟨1, 0⟩) ∧
    sample16.transformPoint ⟨0, coordMin⟩ ∉ sample16.bounds ∧
    sample16.transformPoint ⟨1, 1⟩ ∈
      sample16.transformBox ⟨coordMin, coordMin, sizeMax, sizeMax⟩ := by
  obtain ⟨hbij, hout, hbox⟩ := orientation_exact sample16_valid
  obtain ⟨c, hc, heq⟩ := hbij.surjOn (show (⟨1, 0⟩ : Point) ∈ sample16.bounds by decide)
  exact ⟨⟨c, hc, heq⟩, hout _ (by decide), (hbox _ ⟨1, 1⟩ (by decide)).mp (by decide)⟩

end Pixmap

end Scanline

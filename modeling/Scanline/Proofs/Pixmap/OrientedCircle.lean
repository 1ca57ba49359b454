import Scanline.Proofs.Pixmap.OrientedRect
import Scanline.Proofs.Shape.Symmetry
/-! Oriented circles and disks. A mirrored center is clamped to the coordinates. Then what shows is a
circle of the same radius around the nearest center whose mirror image is a pair of coordinates, which
makes a difference only to radii that are nearly as long as the coordinates go. -/

namespace Scanline

section HeldBack
variable {mirrored : Bool} {size : Nat} {v : Int}

/-- The nearest coordinate of a side whose mirror image is not past the last coordinate. -/
def heldBack (mirrored : Bool) (size : Nat) (v : Int) : Int :=
  if mirrored then max v (size - 1 - coordMax) else v

theorem clampedReflect_heldBack (mirrored : Bool) (size : Nat) (v : Int) :
    clampedReflect mirrored size (heldBack mirrored size v) = clampedReflect mirrored size v := by
  cases mirrored with
  | false => rfl
  | true =>
    simp only [clampedReflect, heldBack, if_true, Frame.mirror, clampCoord, coordMin, coordMax]
    omega

theorem clampedReflect_eq_reflect_heldBack (hv : v ≤ coordMax) :
    clampedReflect mirrored size v = reflect mirrored size (heldBack mirrored size v) := by
  cases mirrored with
  | false => rfl
  | true =>
    simp only [clampedReflect, reflect, heldBack, if_true, Frame.mirror, clampCoord, coordMin,
      coordMax] at *
    omega

theorem natAbs_reflect_sub (mirrored : Bool) (size : Nat) (v w : Int) :
    (reflect mirrored size v - reflect mirrored size w).natAbs = (v - w).natAbs := by
  cases mirrored with
  | false => rfl
  | true =>
    simp only [reflect, if_true]
    omega

/-- A coordinate that is held back is far from the side, also where it is held back to. -/
theorem far_of_heldBack_ne (hne : heldBack mirrored size v ≠ v) {r t : Int}
    (hr : r + size ≤ coordMax) (ht : 0 ≤ t) :
    r < (t - v).natAbs ∧ r < (t - heldBack mirrored size v).natAbs := by
  cases mirrored with
  | false => exact absurd rfl hne
  | true =>
    simp only [heldBack, if_true] at hne ⊢
    omega

end HeldBack

namespace Frame
variable {f : Frame} {c p : Point}

/-- The oriented center around which a circle is drawn. -/
def heldCenter (f : Frame) (c : Point) : Point :=
  Point.turn f.orientation.swapAxes
    ⟨heldBack f.orientation.mirrorX f.width (c.turn f.orientation.swapAxes).x,
      heldBack f.orientation.mirrorY f.height (c.turn f.orientation.swapAxes).y⟩

/-- Where an oriented point goes on a plane without edges. -/
def reflectPoint (f : Frame) (p : Point) : Point :=
  ⟨reflect f.orientation.mirrorX f.width (p.turn f.orientation.swapAxes).x,
    reflect f.orientation.mirrorY f.height (p.turn f.orientation.swapAxes).y⟩

theorem transformPoint_heldCenter (f : Frame) (c : Point) :
    f.transformPoint (f.heldCenter c) = f.transformPoint c := by
  rw [transformPoint_eq_flip, transformPoint_eq_flip, heldCenter, Point.turn_turn, flip, flip,
    clampedReflect_heldBack, clampedReflect_heldBack]

theorem transformPoint_eq_reflectPoint (hc : c.InRange) :
    f.transformPoint c = f.reflectPoint (f.heldCenter c) := by
  have hturn : (c.turn f.orientation.swapAxes).x ≤ coordMax ∧
      (c.turn f.orientation.swapAxes).y ≤ coordMax := by
    cases f.orientation.swapAxes with
    | false => exact ⟨hc.x_le, hc.y_le⟩
    | true => exact ⟨hc.y_le, hc.x_le⟩
  rw [transformPoint_eq_flip, flip, reflectPoint, heldCenter, Point.turn_turn,
    clampedReflect_eq_reflect_heldBack hturn.1, clampedReflect_eq_reflect_heldBack hturn.2]

theorem sameOffsets_reflectPoint (f : Frame) (c p : Point) :
    Circle.SameOffsets c p (f.reflectPoint c) (f.reflectPoint p) := by
  rw [Circle.SameOffsets, reflectPoint, reflectPoint]
  dsimp only
  rw [natAbs_reflect_sub, natAbs_reflect_sub]
  cases f.orientation.swapAxes with
  | false => exact .inl ⟨rfl, rfl⟩
  | true => exact .inr ⟨rfl, rfl⟩

end Frame

namespace Shape.Round
variable {k : Point → Int → Shape} (hk : Round k) {f : Frame} {c p : Point} {r : Int}
include hk

theorem follows_heldCenter (hw : (f.width : Int) ≤ coordMax) (hh : (f.height : Int) ≤ coordMax)
    (hc : c.InRange) (r : Int) : (k (f.heldCenter c) r).Follows f := by
  intro p hp
  rw [hk.orient_eq, Frame.transformPoint_heldCenter, Frame.transformPoint_eq_reflectPoint hc,
    Frame.transformPoint_eq hw hh hp]
  exact hk.mem_iff_of_sameOffsets (f.sameOffsets_reflectPoint _ _)

theorem natAbs_turn_le (swap : Bool) (h : p ∈ (k c r).pixels) :
    (((p.turn swap).x - (c.turn swap).x).natAbs : Int) ≤ r ∧
      (((p.turn swap).y - (c.turn swap).y).natAbs : Int) ≤ r := by
  have hle := hk.natAbs_le h
  cases swap with
  | false => exact hle
  | true => exact hle.symm

/-- Unless the radius is nearly as long as the coordinates go, a circle around a center that is held
back shows nothing, wherever its center is taken to be. -/
theorem mem_heldCenter_iff (hp : p ∈ f.orientedBounds) (hw : r + f.width ≤ coordMax)
    (hh : r + f.height ≤ coordMax) : p ∈ (k (f.heldCenter c) r).pixels ↔ p ∈ (k c r).pixels := by
  obtain ⟨hx, -, hy, -⟩ := Frame.mem_bounds.mp (Frame.mem_orientedBounds.mp hp)
  have hheld := hk.natAbs_turn_le (c := f.heldCenter c) (p := p) (r := r) f.orientation.swapAxes
  have hgiven := hk.natAbs_turn_le (c := c) (p := p) (r := r) f.orientation.swapAxes
  rw [Frame.heldCenter, Point.turn_turn] at hheld
  by_cases hkeepx : heldBack f.orientation.mirrorX f.width (c.turn f.orientation.swapAxes).x =
      (c.turn f.orientation.swapAxes).x
  · by_cases hkeepy : heldBack f.orientation.mirrorY f.height (c.turn f.orientation.swapAxes).y =
        (c.turn f.orientation.swapAxes).y
    · rw [Frame.heldCenter, hkeepx, hkeepy, Point.turn_turn]
    · have hfar := far_of_heldBack_ne hkeepy hh hy
      refine iff_of_false (fun h => ?_) fun h => ?_
      · exact absurd (hheld h).2 (Int.not_le.mpr hfar.2)
      · exact absurd (hgiven h).2 (Int.not_le.mpr hfar.1)
  · have hfar := far_of_heldBack_ne hkeepx hw hx
    refine iff_of_false (fun h => ?_) fun h => ?_
    · exact absurd (hheld h).1 (Int.not_le.mpr hfar.2)
    · exact absurd (hgiven h).1 (Int.not_le.mpr hfar.1)

end Shape.Round

namespace Pixmap
variable {p q : Pixmap} {S T : Set Point} {v : Pixel} {k : Point → Int → Shape} {c : Point} {r : Int}

theorem PaintedOriented.congr (h : PaintedOriented p q S v)
    (hST : ∀ d, p.transformPoint d ∈ p.clipRect → (d ∈ S ↔ d ∈ T)) : PaintedOriented p q T v where
  frame_eq := h.frame_eq
  size_eq := h.size_eq
  painted d hd hdT := h.painted d hd ((hST d hd).mpr hdT)
  unpainted d hd hdT := h.unpainted d hd fun hdS => hdT ((hST d hd).mp hdS)
  outside := h.outside
  kept := h.kept

theorem Valid.drawOriented_round (hp : p.Valid) (hk : Shape.Round k) (hc : c.InRange) (r : Int)
    (v : Pixel) :
    ∃ q, p.drawOriented (k c r) v =
        .ok ((Circle.box (p.transformPoint c) r).intersect p.clipRect, q) ∧
      PaintedOriented p q (k (p.heldCenter c) r).pixels v := by
  have horient : (k (p.heldCenter c) r).orient p.toFrame = (k c r).orient p.toFrame := by
    rw [hk.orient_eq, hk.orient_eq, Frame.transformPoint_heldCenter]
  obtain ⟨q, hq, h⟩ :=
    hp.drawOriented (hk.follows_heldCenter hp.width_le hp.height_le hc r) v
  rw [Pixmap.drawOriented, horient] at hq
  refine ⟨q, ?_, h⟩
  rw [Pixmap.drawOriented, hq, hk.orient_eq, hk.box_eq]

/-- An oriented circle or disk shows what a plain one does around the center that is held back from
the end of the coordinates. Where nothing is held back, or the radius and the sides of the buffer
together are no longer than the coordinates go, that is the circle or disk that was asked for. -/
theorem drawOriented_circle_exact (hp : p.Valid) (hk : Shape.Round k) (hc : c.InRange) (r : Int)
    (v : Pixel) :
    ∃ q, p.drawOriented (k c r) v =
        .ok ((Circle.box (p.transformPoint c) r).intersect p.clipRect, q) ∧
      PaintedOriented p q (k (p.heldCenter c) r).pixels v ∧
      (p.heldCenter c = c ∨ r + p.width ≤ coordMax ∧ r + p.height ≤ coordMax →
        PaintedOriented p q (k c r).pixels v) := by
  obtain ⟨q, hq, h⟩ := hp.drawOriented_round hk hc r v
  refine ⟨q, hq, h, ?_⟩
  rintro (heq | ⟨hw, hh⟩)
  · rw [heq] at h
    exact h
  · apply h.congr
    intro d hd
    exact hk.mem_heldCenter_iff (hp.mem_orientedBounds_of_mem_clipRect hd) hw hh

/-- One row of two pixels that is mirrored, with the clip around the second, which shows first. -/
def mirroredRow : Pixmap :=
  ⟨⟨2, 1, 2, 1, Format.g8, some ⟨1, 0, 1, 1⟩, ⟨false, true, false⟩⟩, ⟨#[0, 0]⟩⟩

theorem mirroredRow_valid : mirroredRow.Valid :=
  ⟨by decide, by decide, by decide, by decide, by decide⟩

theorem drawOriented_circle_exact_row : (⟨coordMin, 0⟩ : Point).InRange ∧
    ∃ q, mirroredRow.drawOriented (.disk ⟨coordMin, 0⟩ 5) 7 = .ok (Box.empty, q) ∧
      PaintedOriented mirroredRow q (Shape.disk ⟨coordMin, 0⟩ 5).pixels 7 := by
  have hc : (⟨coordMin, 0⟩ : Point).InRange := by decide
  obtain ⟨q, hq, -, h⟩ := drawOriented_circle_exact mirroredRow_valid .disk hc 5 7
  exact ⟨hc, q, hq, h (.inr (by decide))⟩

/-- A disk whose center is held back by one column reaches a pixel that it should not. -/
theorem drawOriented_disk_shifted : (⟨-2147483647, 60000⟩ : Point).InRange ∧
    mirroredRow.transformPoint ⟨0, 0⟩ ∈ mirroredRow.clipRect ∧
    (⟨0, 0⟩ : Point) ∉ (Shape.disk ⟨-2147483647, 60000⟩ 2147483647).pixels ∧
    mirroredRow.getOriented ⟨0, 0⟩ = .ok 0 ∧
    ∃ q, mirroredRow.drawOriented (.disk ⟨-2147483647, 60000⟩ 2147483647) 7 =
      .ok (⟨1, 0, 1, 1⟩, q) ∧ q.getOriented ⟨0, 0⟩ = .ok 7 := by
  have hc : (⟨-2147483647, 60000⟩ : Point).InRange := by decide
  obtain ⟨q, hq, h⟩ := mirroredRow_valid.drawOriented_round .disk hc 2147483647 7
  refine ⟨hc, by decide, ?_, rfl, q, hq, h.painted ⟨0, 0⟩ (by decide) ?_⟩
  · intro hmem
    have hdistance := Circle.distance_of_mem_disk hmem
    exact absurd hdistance (by decide)
  · exact Circle.mem_disk_of_distance (by decide) (by decide)

end Pixmap

end Scanline

import Mathlib.Data.Set.Image
import Scanline.Draw
import Scanline.Proofs.Pixmap.Cells
/-! Orientations. The points that an oriented pixmap shows and the points of its buffer are in one
to one correspondence, and boxes follow the points. Axes trade places first; then each side is
mirrored on its own and clamped, which leaves the buffer as it is and everything else outside. -/

namespace Scanline

/-- A point with its axes traded, or as it is. -/
def Point.turn (swap : Bool) (p : Point) : Point := if swap then ⟨p.y, p.x⟩ else p

@[simp] theorem Point.turn_turn (swap : Bool) (p : Point) : (p.turn swap).turn swap = p := by
  cases swap <;> rfl

theorem Point.turn_inj {swap : Bool} {p q : Point} : p.turn swap = q.turn swap ↔ p = q := by
  constructor
  · intro h
    rw [← turn_turn swap p, h, turn_turn]
  · rintro rfl
    rfl

def Box.turn (swap : Bool) (b : Box) : Box := if swap then ⟨b.y, b.x, b.h, b.w⟩ else b

theorem Box.turn_corners (b : Box) (swap : Bool) :
    (⟨b.x, b.y⟩ : Point).turn swap = ⟨(b.turn swap).x, (b.turn swap).y⟩ ∧
      (⟨b.lastX, b.lastY⟩ : Point).turn swap = ⟨(b.turn swap).lastX, (b.turn swap).lastY⟩ := by
  cases swap with
  | false => exact ⟨rfl, rfl⟩
  | true => exact ⟨rfl, rfl⟩

theorem Box.turn_pos (b : Box) (swap : Bool) (hw : 0 < b.w) (hh : 0 < b.h) :
    0 < (b.turn swap).w ∧ 0 < (b.turn swap).h := by
  cases swap with
  | false => exact ⟨hw, hh⟩
  | true => exact ⟨hh, hw⟩

theorem Point.OnScreen.of_turn {swap : Bool} {p : Point} (h : (p.turn swap).OnScreen) :
    p.OnScreen := by
  obtain ⟨hx, hx', hy, hy'⟩ := h
  cases swap with
  | false => exact ⟨hx, hx', hy, hy'⟩
  | true => exact ⟨hy, hy', hx, hx'⟩

theorem Box.mem_turn {swap : Bool} {b : Box} {p : Point} : p ∈ b.turn swap ↔ p.turn swap ∈ b := by
  cases swap with
  | false => rfl
  | true =>
    simp only [turn, Point.turn, if_true, mem_iff, right, bottom]
    omega

/-- A coordinate of a side that may be mirrored, as an exact integer. -/
def reflect (mirrored : Bool) (size : Nat) (v : Int) : Int :=
  if mirrored then size - 1 - v else v

section Reflect
variable {mirrored : Bool} {size : Nat} {v : Int}

@[simp] theorem reflect_reflect : reflect mirrored size (reflect mirrored size v) = v := by
  cases mirrored with
  | false => rfl
  | true =>
    simp only [reflect, if_true]
    omega

theorem reflect_mem (mirrored : Bool) (size : Nat) (v : Int) :
    0 ≤ reflect mirrored size v ∧ reflect mirrored size v < size ↔ 0 ≤ v ∧ v < size := by
  cases mirrored with
  | false => rfl
  | true =>
    simp only [reflect, if_true]
    omega

/-- The lower end of `n` coordinates from `v` on, on a side that may be mirrored. -/
def reflectEdge (mirrored : Bool) (size : Nat) (v : Int) (n : Nat) : Int :=
  if mirrored then size - v - n else v

theorem reflectEdge_eq {n : Nat} (h : 0 < n) : reflectEdge mirrored size v n =
    min (reflect mirrored size v) (reflect mirrored size (v + n - 1)) := by
  cases mirrored with
  | false =>
    simp only [reflect, reflectEdge, Bool.false_eq_true, if_false]
    omega
  | true =>
    simp only [reflect, reflectEdge, if_true]
    omega

theorem reflectEdge_add (mirrored : Bool) (size : Nat) (v : Int) {n : Nat} (h : 0 < n) :
    reflectEdge mirrored size v n + n =
      max (reflect mirrored size v) (reflect mirrored size (v + n - 1)) + 1 := by
  cases mirrored with
  | false =>
    simp only [reflect, reflectEdge, Bool.false_eq_true, if_false]
    omega
  | true =>
    simp only [reflect, reflectEdge, if_true]
    omega

theorem reflectEdge_bounds (mirrored : Bool) {n : Nat} (h : 0 ≤ v) (h' : v + n ≤ size) :
    0 ≤ reflectEdge mirrored size v n ∧ reflectEdge mirrored size v n + n ≤ size := by
  cases mirrored with
  | false => exact ⟨h, h'⟩
  | true =>
    simp only [reflectEdge, if_true]
    omega

theorem reflectEdge_le_iff {n : Nat} {t : Int} :
    reflectEdge mirrored size v n ≤ t ∧ t < reflectEdge mirrored size v n + n ↔
      v ≤ reflect mirrored size t ∧ reflect mirrored size t < v + n := by
  cases mirrored with
  | false => rfl
  | true =>
    simp only [reflect, reflectEdge, if_true]
    omega

/-- Two sides that are mirrored alike keep the distance of a coordinate from its edge. -/
theorem sub_reflectEdge_sub {size' n : Nat} {v' t : Int} :
    t - (reflectEdge mirrored size v n - reflectEdge mirrored size' v' n) =
      reflect mirrored size' (reflect mirrored size t - (v - v')) := by
  cases mirrored with
  | false => rfl
  | true =>
    simp only [reflect, reflectEdge, if_true]
    omega

end Reflect

/-- A coordinate of a side that may be mirrored, clamped to the coordinates if it is. -/
def clampedReflect (mirrored : Bool) (size : Nat) (v : Int) : Int :=
  if mirrored then Frame.mirror size v else v

section ClampedReflect
variable {mirrored : Bool} {size : Nat} {t v w : Int} (hs : (size : Int) ≤ coordMax)
include hs

theorem clampedReflect_eq_reflect (hv : 0 ≤ v) (hv' : v < size) :
    clampedReflect mirrored size v = reflect mirrored size v := by
  cases mirrored with
  | false => rfl
  | true =>
    simp only [clampedReflect, reflect, if_true, Frame.mirror, clampCoord, coordMin, coordMax] at *
    omega

theorem clampedReflect_mem_iff (mirrored : Bool) (v : Int) :
    0 ≤ clampedReflect mirrored size v ∧ clampedReflect mirrored size v < size ↔
      0 ≤ v ∧ v < size := by
  cases mirrored with
  | false => rfl
  | true =>
    simp only [clampedReflect, if_true, Frame.mirror, clampCoord, coordMin, coordMax] at *
    omega

variable (ht : 0 ≤ t) (ht' : t < size)
include ht ht'

theorem clampedReflect_eq_iff :
    clampedReflect mirrored size t = clampedReflect mirrored size v ↔ t = v := by
  cases mirrored with
  | false => rfl
  | true =>
    simp only [clampedReflect, if_true, Frame.mirror, clampCoord, coordMin, coordMax] at *
    omega

theorem clampedReflect_between_iff :
    min (clampedReflect mirrored size v) (clampedReflect mirrored size w) ≤
        clampedReflect mirrored size t ∧
      clampedReflect mirrored size t ≤
        max (clampedReflect mirrored size v) (clampedReflect mirrored size w) ↔
      min v w ≤ t ∧ t ≤ max v w := by
  cases mirrored with
  | false => rfl
  | true =>
    simp only [clampedReflect, if_true, Frame.mirror, clampCoord, coordMin, coordMax] at *
    omega

end ClampedReflect

namespace Frame
variable {f : Frame} {p q c : Point}

/-- The points that an oriented pixmap shows. -/
def orientedBounds (f : Frame) : Box := Box.ofSize 0 0 f.orientedWidth f.orientedHeight

/-- The oriented point that shows a point of the buffer. -/
def restorePoint (f : Frame) (c : Point) : Point :=
  Point.turn f.orientation.swapAxes ⟨reflect f.orientation.mirrorX f.width c.x,
    reflect f.orientation.mirrorY f.height c.y⟩

theorem mem_orientedBounds :
    p ∈ f.orientedBounds ↔ p.turn f.orientation.swapAxes ∈ f.bounds := by
  rw [orientedBounds, Box.mem_ofSize, mem_bounds, orientedWidth, orientedHeight, Point.turn]
  cases f.orientation.swapAxes with
  | false =>
    simp only [Bool.false_eq_true, if_false]
    omega
  | true =>
    simp only [if_true]
    omega

/-- A point of the buffer with its coordinates mirrored as the orientation has them. -/
def flip (f : Frame) (p : Point) : Point :=
  ⟨clampedReflect f.orientation.mirrorX f.width p.x,
    clampedReflect f.orientation.mirrorY f.height p.y⟩

theorem transformPoint_eq_flip (f : Frame) (p : Point) :
    f.transformPoint p = f.flip (p.turn f.orientation.swapAxes) := rfl

variable (hw : (f.width : Int) ≤ coordMax) (hh : (f.height : Int) ≤ coordMax)
include hw hh

theorem flip_mem_iff : f.flip p ∈ f.bounds ↔ p ∈ f.bounds := by
  have hx := clampedReflect_mem_iff hw f.orientation.mirrorX p.x
  have hy := clampedReflect_mem_iff hh f.orientation.mirrorY p.y
  rw [mem_bounds, mem_bounds, flip]
  dsimp only
  omega

theorem flip_eq_iff (hp : p ∈ f.bounds) : f.flip p = f.flip q ↔ p = q := by
  obtain ⟨hx, hx', hy, hy'⟩ := mem_bounds.mp hp
  rw [flip, flip, Point.mk.injEq, clampedReflect_eq_iff hw hx hx', clampedReflect_eq_iff hh hy hy',
    ← Point.mk.injEq]

theorem transformPoint_mem_iff : f.transformPoint p ∈ f.bounds ↔ p ∈ f.orientedBounds := by
  rw [mem_orientedBounds]
  exact flip_mem_iff hw hh

/-- No other point, shown or not, is taken where a point that is shown goes. -/
theorem transformPoint_eq_iff (hp : p ∈ f.orientedBounds) :
    f.transformPoint p = f.transformPoint q ↔ p = q :=
  (flip_eq_iff hw hh (mem_orientedBounds.mp hp)).trans Point.turn_inj

theorem transformPoint_eq (hp : p ∈ f.orientedBounds) : f.transformPoint p =
    ⟨reflect f.orientation.mirrorX f.width (p.turn f.orientation.swapAxes).x,
      reflect f.orientation.mirrorY f.height (p.turn f.orientation.swapAxes).y⟩ := by
  obtain ⟨hx, hx', hy, hy'⟩ := mem_bounds.mp (mem_orientedBounds.mp hp)
  rw [transformPoint_eq_flip, flip, clampedReflect_eq_reflect hw hx hx',
    clampedReflect_eq_reflect hh hy hy']

theorem restorePoint_transformPoint (hp : p ∈ f.orientedBounds) :
    f.restorePoint (f.transformPoint p) = p := by
  rw [transformPoint_eq hw hh hp, restorePoint, reflect_reflect, reflect_reflect]
  exact Point.turn_turn _ _

omit hw hh in
theorem restorePoint_mem_iff : f.restorePoint c ∈ f.orientedBounds ↔ c ∈ f.bounds := by
  have hx := reflect_mem f.orientation.mirrorX f.width c.x
  have hy := reflect_mem f.orientation.mirrorY f.height c.y
  rw [mem_orientedBounds, restorePoint, Point.turn_turn, mem_bounds, mem_bounds]
  dsimp only
  omega

theorem transformPoint_restorePoint (hc : c ∈ f.bounds) :
    f.transformPoint (f.restorePoint c) = c := by
  rw [transformPoint_eq hw hh (restorePoint_mem_iff.mpr hc), restorePoint, Point.turn_turn,
    reflect_reflect, reflect_reflect]

/-- The points of the buffer that show a set of oriented points. -/
theorem mem_image_transformPoint {L : Set Point} (hL : ∀ p ∈ L, p ∈ f.orientedBounds) :
    c ∈ f.transformPoint '' L ↔ f.restorePoint c ∈ L := by
  constructor
  · rintro ⟨p, hp, rfl⟩
    rw [restorePoint_transformPoint hw hh (hL p hp)]
    exact hp
  · intro hc
    exact ⟨f.restorePoint c, hc,
      transformPoint_restorePoint hw hh (restorePoint_mem_iff.mp (hL _ hc))⟩

theorem orientedWidth_le : (f.orientedWidth : Int) ≤ coordMax := by
  unfold orientedWidth
  split
  · exact hh
  · exact hw

theorem orientedHeight_le : (f.orientedHeight : Int) ≤ coordMax := by
  unfold orientedHeight
  split
  · exact hw
  · exact hh

/-- The box has points, and all of them are shown. -/
structure Shows (f : Frame) (b : Box) : Prop where
  w_pos : 0 < b.w
  h_pos : 0 < b.h
  first_mem : ⟨b.x, b.y⟩ ∈ f.orientedBounds
  last_mem : ⟨b.lastX, b.lastY⟩ ∈ f.orientedBounds

omit hw hh in
theorem Shows.of_bounds {x y w h : Int} (hw : 0 < w) (hh : 0 < h) (hx : 0 ≤ x) (hy : 0 ≤ y)
    (hx' : x + w ≤ f.orientedWidth) (hy' : y + h ≤ f.orientedHeight) :
    f.Shows ⟨x, y, w.toNat, h.toNat⟩ := by
  refine ⟨by dsimp only; omega, by dsimp only; omega, ?_, ?_⟩
  · simp only [orientedBounds, Box.mem_ofSize]
    omega
  · simp only [orientedBounds, Box.mem_ofSize, Box.lastX, Box.lastY, Box.right, Box.bottom]
    omega

section Boxes
variable {b : Box} (hb : f.Shows b)
include hb

/-- A box of points that are shown keeps its size, but for the traded axes. -/
theorem transformBox_eq : f.transformBox b =
    ⟨reflectEdge f.orientation.mirrorX f.width (b.turn f.orientation.swapAxes).x
        (b.turn f.orientation.swapAxes).w,
      reflectEdge f.orientation.mirrorY f.height (b.turn f.orientation.swapAxes).y
        (b.turn f.orientation.swapAxes).h,
      (b.turn f.orientation.swapAxes).w, (b.turn f.orientation.swapAxes).h⟩ := by
  -- Both corners lie in the buffer, so that neither they nor the edges of the box are clamped.
  have hon := onScreen_of_mem hw hh ((transformPoint_mem_iff hw hh).mpr hb.first_mem)
  have hon' := onScreen_of_mem hw hh ((transformPoint_mem_iff hw hh).mpr hb.last_mem)
  have hkept := (onScreen_of_mem hw hh (mem_orientedBounds.mp hb.last_mem)).of_turn
  have hne : b.isEmpty = false := by
    have := hb.w_pos
    have := hb.h_pos
    simp only [Box.isEmpty, Bool.or_eq_false_iff, decide_eq_false_iff_not]
    omega
  have hpos : 0 < (b.turn f.orientation.swapAxes).w ∧ 0 < (b.turn f.orientation.swapAxes).h :=
    b.turn_pos _ hb.w_pos hb.h_pos
  have hx := reflectEdge_add f.orientation.mirrorX f.width (b.turn f.orientation.swapAxes).x hpos.1
  have hy := reflectEdge_add f.orientation.mirrorY f.height (b.turn f.orientation.swapAxes).y
    hpos.2
  rw [transformBox, if_neg (by rw [hne]; exact Bool.false_ne_true),
    clampCoord_of_onScreen hkept.1 hkept.2, clampCoord_of_onScreen hkept.3 hkept.4,
    Box.ofCorners_of_onScreen hon hon', transformPoint_eq hw hh hb.first_mem,
    transformPoint_eq hw hh hb.last_mem, (b.turn_corners _).1, (b.turn_corners _).2,
    reflectEdge_eq hpos.1, reflectEdge_eq hpos.2]
  simp only [Box.lastX, Box.lastY, Box.right, Box.bottom, Box.mk.injEq, true_and]
  rw [reflectEdge_eq hpos.1] at hx
  rw [reflectEdge_eq hpos.2] at hy
  omega

theorem mem_transformBox : c ∈ f.transformBox b ↔ f.restorePoint c ∈ b := by
  rw [transformBox_eq hw hh hb, restorePoint, ← Box.mem_turn, Box.mem_iff,
    Box.mem_iff]
  simp only [Box.right, Box.bottom]
  rw [← and_assoc, reflectEdge_le_iff, reflectEdge_le_iff, and_assoc]

theorem transformBox_fits : 0 ≤ (f.transformBox b).x ∧ 0 ≤ (f.transformBox b).y ∧
    (f.transformBox b).x + (f.transformBox b).w ≤ f.width ∧
      (f.transformBox b).y + (f.transformBox b).h ≤ f.height := by
  have hfirst := mem_bounds.mp (mem_orientedBounds.mp hb.first_mem)
  have hlast := mem_bounds.mp (mem_orientedBounds.mp hb.last_mem)
  rw [(b.turn_corners _).1] at hfirst
  rw [(b.turn_corners _).2] at hlast
  simp only [Box.lastX, Box.lastY, Box.right, Box.bottom] at hlast
  rw [transformBox_eq hw hh hb]
  dsimp only at hfirst ⊢
  have hx := reflectEdge_bounds f.orientation.mirrorX hfirst.1
    (show _ + ((b.turn f.orientation.swapAxes).w : Int) ≤ f.width by omega)
  have hy := reflectEdge_bounds f.orientation.mirrorY hfirst.2.2.1
    (show _ + ((b.turn f.orientation.swapAxes).h : Int) ≤ f.height by omega)
  omega

end Boxes

end Frame

end Scanline

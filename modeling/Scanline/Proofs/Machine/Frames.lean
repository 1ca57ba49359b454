import Scanline.Proofs.Box.Laws
import Scanline.Proofs.Machine.Boxes
import Scanline.Proofs.Pixmap.Oriented
/-! Pixmaps in machine arithmetic: the map from oriented coordinates to those of the buffer, the
clip, and the addresses of pixels. -/

namespace Scanline.Machine

/-- A coordinate seen from the other end of a side. -/
def mirror (size : Nat) (v : Int) : Except Failure Int := do
  i32 (clampCoord (← i64 ((← i64 (size - 1)) - v)))

def clampedReflect (mirrored : Bool) (size : Nat) (v : Int) : Except Failure Int :=
  if mirrored then mirror size v else .ok v

def transformPoint (f : Frame) (p : Point) : Except Failure Point := do
  let q := p.turn f.orientation.swapAxes
  return ⟨← clampedReflect f.orientation.mirrorX f.width q.x,
    ← clampedReflect f.orientation.mirrorY f.height q.y⟩

def transformBox (f : Frame) (b : Box) : Except Failure Box := do
  if b.isEmpty then return Box.empty
  let x ← i32 (clampCoord (← lastX b))
  let y ← i32 (clampCoord (← lastY b))
  ofCorners (← transformPoint f ⟨b.x, b.y⟩) (← transformPoint f ⟨x, y⟩)

/-- The box that drawing may write. -/
def clipRect (f : Frame) : Except Failure Box :=
  match f.clip with
  | some c => intersect c f.bounds
  | none => .ok f.bounds

/-- Counts the bytes up to a pixel and through it. -/
def reach (f : Frame) (x y : Nat) : Except Failure Unit := do
  let row ← u64 (y * f.stride : Nat)
  if f.format.depth.isPacked then
    let bit ← u64 (x * f.format.depth.bits : Nat)
    discard (u64 (row + bit / 8))
  else
    let start ← u64 (row + (← u64 (x * f.format.depth.bytes : Nat)))
    discard (u64 (start + f.format.depth.bytes))

/-- A pixmap that a machine can hold: a valid one whose clip has its fields in words. -/
structure Held (p : Pixmap) : Prop extends p.Valid where
  clip_inRange : ∀ c, p.clip = some c → c.InRange

variable {p : Pixmap} {b : Box} {q : Point} {v w : Int} {size : Nat}

theorem mirror_eq (hsize : (size : Int) ≤ coordMax) (hv : -0x80000000 ≤ v ∧ v ≤ 0x7fffffff) :
    mirror size v = .ok (Frame.mirror size v) := by
  have hs : (size : Int) ≤ 0x7fffffff := hsize
  have hclamp := clampCoord_bounds (size - 1 - v)
  rw [mirror, i64_eq (by omega) (by omega), ok_bind, i64_eq (by omega) (by omega), ok_bind]
  exact i32_eq hclamp.1 hclamp.2

theorem clampedReflect_eq (mirrored : Bool) (hsize : (size : Int) ≤ coordMax)
    (hv : -0x80000000 ≤ v ∧ v ≤ 0x7fffffff) :
    clampedReflect mirrored size v = .ok (Scanline.clampedReflect mirrored size v) := by
  cases mirrored with
  | false => rfl
  | true => exact mirror_eq hsize hv

theorem clampedReflect_bounds (mirrored : Bool) (size : Nat)
    (hv : -0x80000000 ≤ v ∧ v ≤ 0x7fffffff) :
    -0x80000000 ≤ Scanline.clampedReflect mirrored size v ∧
      Scanline.clampedReflect mirrored size v ≤ 0x7fffffff := by
  cases mirrored with
  | false => exact hv
  | true => exact clampCoord_bounds _

theorem turn_inRange (swap : Bool) (hq : q.InRange) : (q.turn swap).InRange := by
  cases swap with
  | false => exact hq
  | true => exact ⟨hq.y_ge, hq.y_le, hq.x_ge, hq.x_le⟩

theorem transformPoint_eq (hp : p.Valid) (hq : q.InRange) :
    transformPoint p.toFrame q = .ok (p.transformPoint q) := by
  obtain ⟨hx, hy⟩ := point_fields (turn_inRange p.orientation.swapAxes hq)
  rw [transformPoint, clampedReflect_eq _ hp.width_le hx, ok_bind,
    clampedReflect_eq _ hp.height_le hy, ok_bind]
  rfl

theorem transformPoint_inRange (f : Frame) (hq : q.InRange) : (f.transformPoint q).InRange := by
  obtain ⟨hx, hy⟩ := point_fields (turn_inRange f.orientation.swapAxes hq)
  have hmx := clampedReflect_bounds f.orientation.mirrorX f.width hx
  have hmy := clampedReflect_bounds f.orientation.mirrorY f.height hy
  exact ⟨hmx.1, hmx.2, hmy.1, hmy.2⟩

theorem clamped_inRange (v w : Int) : (⟨clampCoord v, clampCoord w⟩ : Point).InRange := by
  have hv := clampCoord_bounds v
  have hw := clampCoord_bounds w
  exact ⟨hv.1, hv.2, hw.1, hw.2⟩

theorem transformBox_eq (hp : p.Valid) (hb : b.InRange) :
    transformBox p.toFrame b = .ok (p.transformBox b) := by
  have hfirst : (⟨b.x, b.y⟩ : Point).InRange := ⟨hb.x_ge, hb.x_le, hb.y_ge, hb.y_le⟩
  have hlast := clamped_inRange b.lastX b.lastY
  have hx := clampCoord_bounds b.lastX
  have hy := clampCoord_bounds b.lastY
  unfold transformBox Frame.transformBox
  split
  · rfl
  rw [lastX_eq hb, ok_bind, i32_eq hx.1 hx.2, ok_bind, lastY_eq hb, ok_bind, i32_eq hy.1 hy.2,
    ok_bind, transformPoint_eq hp hfirst, ok_bind, transformPoint_eq hp hlast, ok_bind]
  exact ofCorners_eq (transformPoint_inRange _ hfirst) (transformPoint_inRange _ hlast)

theorem transformBox_inRange (f : Frame) (b : Box) : (f.transformBox b).InRange := by
  unfold Frame.transformBox
  split
  · exact Box.inRange_empty
  · exact Box.inRange_ofEdges _ _ _ _

theorem bounds_inRange (hp : p.Valid) : p.bounds.InRange := by
  have hw : (p.width : Int) ≤ 0x7fffffff := hp.width_le
  have hh : (p.height : Int) ≤ 0x7fffffff := hp.height_le
  apply Box.inRange_ofSize
  constructor
  all_goals
    simp only [coordMin, coordMax, sizeMax]
    omega

theorem clipRect_inRange (hp : p.Valid) : p.clipRect.InRange := by
  unfold Frame.clipRect
  split
  · exact (Box.canonical_intersect _ _).toInRange
  · exact bounds_inRange hp

theorem clipRect_eq (hp : Held p) : clipRect p.toFrame = .ok p.clipRect := by
  rw [clipRect, Frame.clipRect]
  cases hclip : p.clip with
  | none => rfl
  | some c => exact intersect_eq (hp.clip_inRange c hclip) (bounds_inRange hp.toValid)

/-- The bytes of every row have addresses. -/
theorem row_end_le (hp : p.Valid) {y : Nat} (hy : y < p.height) :
    y * p.stride + p.stride ≤ 0xffffffffffffffff := by
  have hsize : p.stride * p.height < 0x10000000000000000 := hp.size_lt
  have hrows : (y + 1) * p.stride ≤ p.height * p.stride := Nat.mul_le_mul_right _ hy
  rw [Nat.succ_mul, Nat.mul_comm p.height] at hrows
  omega

theorem reach_eq (hp : p.Valid) {x y : Nat} (hx : x < p.width) (hy : y < p.height) :
    reach p.toFrame x y = .ok () := by
  have hend := row_end_le hp hy
  have hrow := hp.row_fits (Frame.mem_bounds_of_lt hx hy)
  have hbit : x * p.format.depth.bits ≤ 0x7fffffff * 32 :=
    Nat.mul_le_mul (by have : (p.width : Int) ≤ 0x7fffffff := hp.width_le; omega)
      p.format.depth.bits_le
  dsimp only [Int.toNat_natCast] at hrow
  unfold reach
  rw [u64_eq (by omega) (by omega), ok_bind]
  split
  · rw [u64_eq (by omega) (by omega), ok_bind, u64_eq (by omega) (by omega)]
    rfl
  · rename_i hpack
    obtain ⟨hbits, hbytes⟩ := Depth.bits_of_not_isPacked (Bool.eq_false_iff.mpr hpack)
    rw [hbits, Nat.mul_left_comm] at hrow hbit
    rw [u64_eq (by omega) (by omega), ok_bind, u64_eq (by omega) (by omega), ok_bind,
      u64_eq (by omega) (by omega)]
    rfl

end Scanline.Machine

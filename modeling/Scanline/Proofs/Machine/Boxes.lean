import Scanline.Proofs.Box.Laws
import Scanline.Proofs.Machine.Words
/-! Boxes in machine arithmetic. Edges and sizes are computed in 64 bits, and only what was clamped
goes back into 32. -/

namespace Scanline.Machine

def right (b : Box) : Except Failure Int := i64 (b.x + b.w)

def bottom (b : Box) : Except Failure Int := i64 (b.y + b.h)

def lastX (b : Box) : Except Failure Int := do i64 ((← right b) - 1)

def lastY (b : Box) : Except Failure Int := do i64 ((← bottom b) - 1)

def area (b : Box) : Except Failure Int := u64 (b.w * b.h)

def ofEdges (left top right bottom : Int) : Except Failure Box := do
  let left := clampCoord left
  let top := clampCoord top
  if right ≤ left ∨ bottom ≤ top then return Box.empty
  let w ← u32 (min (← i64 (right - left)) sizeMax)
  let h ← u32 (min (← i64 (bottom - top)) sizeMax)
  return Box.ofSize (← i32 left) (← i32 top) w.toNat h.toNat

def ofCorners (a b : Point) : Except Failure Box := do
  ofEdges (min a.x b.x) (min a.y b.y) (← i64 (max a.x b.x + 1)) (← i64 (max a.y b.y + 1))

def union (a b : Box) : Except Failure Box := do
  if a.isEmpty then return b
  if b.isEmpty then return a
  ofEdges (min a.x b.x) (min a.y b.y) (max (← right a) (← right b)) (max (← bottom a) (← bottom b))

def intersect (a b : Box) : Except Failure Box := do
  if a.isEmpty || b.isEmpty then return Box.empty
  ofEdges (max a.x b.x) (max a.y b.y) (min (← right a) (← right b)) (min (← bottom a) (← bottom b))

def translate (b : Box) (dx dy : Int) : Except Failure Box := do
  if b.isEmpty then return Box.empty
  let x ← i64 (b.x + dx)
  let y ← i64 (b.y + dy)
  ofEdges x y (← i64 (x + b.w)) (← i64 (y + b.h))

def contains (b : Box) (p : Point) : Except Failure Bool := do
  return b.x ≤ p.x && p.x < (← right b) && b.y ≤ p.y && p.y < (← bottom b)

def covers (a b : Box) : Except Failure Bool := do
  if b.isEmpty then return true
  return !a.isEmpty && a.x ≤ b.x && a.y ≤ b.y && (← right b) ≤ (← right a) &&
    (← bottom b) ≤ (← bottom a)

section Boxes
variable {a b : Box} {p q : Point} {left top right bottom dx dy : Int}

/-- How far the fields of a box reach. -/
theorem box_fields (hb : b.InRange) : (-0x80000000 ≤ b.x ∧ b.x ≤ 0x7fffffff) ∧
    (-0x80000000 ≤ b.y ∧ b.y ≤ 0x7fffffff) ∧ b.w ≤ 0xffffffff ∧ b.h ≤ 0xffffffff :=
  ⟨⟨hb.x_ge, hb.x_le⟩, ⟨hb.y_ge, hb.y_le⟩, hb.w_le, hb.h_le⟩

theorem point_fields (hp : p.InRange) : (-0x80000000 ≤ p.x ∧ p.x ≤ 0x7fffffff) ∧
    -0x80000000 ≤ p.y ∧ p.y ≤ 0x7fffffff := ⟨⟨hp.x_ge, hp.x_le⟩, hp.y_ge, hp.y_le⟩

theorem clampCoord_bounds (v : Int) : -0x80000000 ≤ clampCoord v ∧ clampCoord v ≤ 0x7fffffff := by
  unfold clampCoord coordMin coordMax
  omega

theorem right_eq (hb : b.InRange) : Machine.right b = .ok b.right := by
  obtain ⟨hx, -, hw, -⟩ := box_fields hb
  exact i64_eq (by omega) (by omega)

theorem bottom_eq (hb : b.InRange) : Machine.bottom b = .ok b.bottom := by
  obtain ⟨-, hy, -, hh⟩ := box_fields hb
  exact i64_eq (by omega) (by omega)

theorem right_bounds (hb : b.InRange) : -0x80000000 ≤ b.right ∧ b.right ≤ 0x17fffffff := by
  obtain ⟨hx, -, hw, -⟩ := box_fields hb
  unfold Box.right
  omega

theorem bottom_bounds (hb : b.InRange) : -0x80000000 ≤ b.bottom ∧ b.bottom ≤ 0x17fffffff := by
  obtain ⟨-, hy, -, hh⟩ := box_fields hb
  unfold Box.bottom
  omega

theorem lastX_eq (hb : b.InRange) : lastX b = .ok b.lastX := by
  have := right_bounds hb
  rw [lastX, right_eq hb]
  exact i64_eq (by omega) (by omega)

theorem lastY_eq (hb : b.InRange) : lastY b = .ok b.lastY := by
  have := bottom_bounds hb
  rw [lastY, bottom_eq hb]
  exact i64_eq (by omega) (by omega)

theorem area_eq (hb : b.InRange) : area b = .ok (b.area : Int) := by
  obtain ⟨-, -, hw, hh⟩ := box_fields hb
  have harea : b.w * b.h ≤ 0xffffffff * 0xffffffff := Nat.mul_le_mul hw hh
  rw [area, Box.area, Int.natCast_mul, ← Int.natCast_mul]
  exact u64_eq (by omega) (by omega)

theorem ofEdges_eq (hr : -0x4000000000000000 ≤ right ∧ right ≤ 0x4000000000000000)
    (hb : -0x4000000000000000 ≤ bottom ∧ bottom ≤ 0x4000000000000000) :
    ofEdges left top right bottom = .ok (Box.ofEdges left top right bottom) := by
  have hl := clampCoord_bounds left
  have ht := clampCoord_bounds top
  unfold ofEdges Box.ofEdges
  dsimp only
  split
  · rfl
  rename_i hne
  unfold sizeMax
  rw [i64_eq (by omega) (by omega), ok_bind, u32_eq (by omega) (by omega), ok_bind,
    i64_eq (by omega) (by omega), ok_bind, u32_eq (by omega) (by omega), ok_bind,
    i32_eq hl.1 hl.2, ok_bind, i32_eq ht.1 ht.2, ok_bind]
  have hcut (v : Int) : (min v (4294967295 : Nat)).toNat = min v.toNat 4294967295 := by omega
  rw [hcut, hcut]
  rfl

theorem ofCorners_eq (hp : p.InRange) (hq : q.InRange) :
    ofCorners p q = .ok (Box.ofCorners p q) := by
  obtain ⟨hpx, hpy⟩ := point_fields hp
  obtain ⟨hqx, hqy⟩ := point_fields hq
  rw [ofCorners, i64_eq (by omega) (by omega), ok_bind, i64_eq (by omega) (by omega), ok_bind]
  exact ofEdges_eq (by omega) (by omega)

theorem union_eq (ha : a.InRange) (hb : b.InRange) : union a b = .ok (a.union b) := by
  have har := right_bounds ha
  have hab := bottom_bounds ha
  have hbr := right_bounds hb
  have hbb := bottom_bounds hb
  unfold union Box.union
  split
  · rfl
  split
  · rfl
  rw [right_eq ha, right_eq hb, bottom_eq ha, bottom_eq hb]
  exact ofEdges_eq (by omega) (by omega)

theorem union_inRange (ha : a.InRange) (hb : b.InRange) : (a.union b).InRange := by
  unfold Box.union
  split
  · exact hb
  split
  · exact ha
  · exact Box.inRange_ofEdges _ _ _ _

theorem intersect_eq (ha : a.InRange) (hb : b.InRange) :
    intersect a b = .ok (a.intersect b) := by
  have har := right_bounds ha
  have hab := bottom_bounds ha
  have hbr := right_bounds hb
  have hbb := bottom_bounds hb
  unfold intersect Box.intersect
  split
  · rfl
  rw [right_eq ha, right_eq hb, bottom_eq ha, bottom_eq hb]
  exact ofEdges_eq (by omega) (by omega)

theorem translate_eq (hb : b.InRange) (hd : (⟨dx, dy⟩ : Point).InRange) :
    translate b dx dy = .ok (b.translate dx dy) := by
  obtain ⟨hx, hy, hw, hh⟩ := box_fields hb
  obtain ⟨hdx, hdy⟩ := point_fields hd
  dsimp only at hdx hdy
  unfold translate Box.translate
  split
  · rfl
  rw [i64_eq (by omega) (by omega), ok_bind, i64_eq (by omega) (by omega), ok_bind,
    i64_eq (by omega) (by omega), ok_bind, i64_eq (by omega) (by omega), ok_bind]
  exact ofEdges_eq (by omega) (by omega)

theorem contains_eq (hb : b.InRange) (p : Point) : contains b p = .ok (decide (p ∈ b)) := by
  rw [contains, right_eq hb, bottom_eq hb]
  simp only [ok_bind, Box.mem_iff, Bool.decide_and, Bool.and_assoc]
  rfl

theorem covers_eq (ha : a.InRange) (hb : b.InRange) : covers a b = .ok (a.covers b) := by
  unfold covers Box.covers
  rw [right_eq ha, right_eq hb, bottom_eq ha, bottom_eq hb]
  split
  · rename_i hempty
    rw [hempty]
    rfl
  · rename_i hne
    rw [Bool.not_eq_true] at hne
    rw [hne]
    rfl

end Boxes

end Scanline.Machine

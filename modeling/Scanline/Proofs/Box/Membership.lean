import Scanline.Box
/-! Which points the box operations cover, for the points that a buffer can have. Edges are clamped
to the coordinates and extents, but no clamp reaches such a point, so that on screens the
operations are exact whatever their arguments. -/

namespace Scanline

/-- A buffer of some size has this point. -/
structure Point.OnScreen (p : Point) : Prop where
  x_nonneg : 0 ≤ p.x
  x_lt : p.x < coordMax
  y_nonneg : 0 ≤ p.y
  y_lt : p.y < coordMax

theorem coordMin_le_clampCoord (v : Int) : coordMin ≤ clampCoord v := Int.le_max_left _ _

theorem clampCoord_le_iff {v x : Int} (hx : 0 ≤ x) (hx' : x < coordMax) :
    clampCoord v ≤ x ↔ v ≤ x := by
  simp only [clampCoord, coordMin, coordMax] at *
  omega

theorem clampCoord_of_onScreen {v : Int} (hv : 0 ≤ v) (hv' : v < coordMax) : clampCoord v = v := by
  simp only [clampCoord, coordMin, coordMax] at *
  omega

namespace Box
variable {p : Point} {a b : Box}

theorem not_isEmpty_of_mem (h : p ∈ b) : b.isEmpty = false := by
  rw [mem_iff, right, bottom] at h
  exact isEmpty_eq_false_iff.mpr (by omega)

theorem not_mem_of_isEmpty (h : b.isEmpty = true) : p ∉ b := by
  intro hp
  rw [not_isEmpty_of_mem hp] at h
  exact Bool.false_ne_true h

theorem mem_ofSize {x y : Int} {w h : Nat} :
    p ∈ ofSize x y w h ↔ x ≤ p.x ∧ p.x < x + w ∧ y ≤ p.y ∧ p.y < y + h := by
  unfold ofSize
  split
  · constructor
    · exact fun hp => absurd hp (not_mem_empty p)
    · intro hp
      omega
  · exact mem_iff

theorem mem_ofEdges {l t r b : Int} (hp : p.OnScreen) :
    p ∈ ofEdges l t r b ↔ l ≤ p.x ∧ p.x < r ∧ t ≤ p.y ∧ p.y < b := by
  obtain ⟨hx, hx', hy, hy'⟩ := hp
  have hl := clampCoord_le_iff (v := l) hx hx'
  have ht := clampCoord_le_iff (v := t) hy hy'
  have hl' := coordMin_le_clampCoord l
  have ht' := coordMin_le_clampCoord t
  simp only [coordMin] at hl' ht'
  simp only [coordMax] at hx' hy'
  unfold ofEdges
  dsimp only
  split
  · constructor
    · exact fun hp => absurd hp (not_mem_empty p)
    · intro hp
      omega
  · rw [mem_ofSize, sizeMax]
    omega

/-- Edges on a screen are not clamped. -/
theorem ofEdges_of_bounds {l t r b : Int} (hl : 0 ≤ l) (hr : l < r) (hr' : r ≤ coordMax)
    (ht : 0 ≤ t) (hb : t < b) (hb' : b ≤ coordMax) :
    ofEdges l t r b = ⟨l, t, (r - l).toNat, (b - t).toNat⟩ := by
  unfold ofEdges
  dsimp only
  rw [clampCoord_of_onScreen hl (by omega), clampCoord_of_onScreen ht (by omega),
    if_neg (by omega), ofSize]
  simp only [coordMax] at hr' hb'
  rw [sizeMax, if_neg (by omega), mk.injEq]
  omega

theorem mem_ofCorners {c d : Point} (hp : p.OnScreen) :
    p ∈ ofCorners c d ↔
      min c.x d.x ≤ p.x ∧ p.x ≤ max c.x d.x ∧ min c.y d.y ≤ p.y ∧ p.y ≤ max c.y d.y := by
  rw [ofCorners, mem_ofEdges hp]
  omega

theorem ofCorners_of_onScreen {c d : Point} (hc : c.OnScreen) (hd : d.OnScreen) :
    ofCorners c d = ⟨min c.x d.x, min c.y d.y, (max c.x d.x + 1 - min c.x d.x).toNat,
      (max c.y d.y + 1 - min c.y d.y).toNat⟩ := by
  obtain ⟨hx, hx', hy, hy'⟩ := hc
  obtain ⟨gx, gx', gy, gy'⟩ := hd
  exact ofEdges_of_bounds (by omega) (by omega) (by omega) (by omega) (by omega) (by omega)

theorem mem_intersect (hp : p.OnScreen) : p ∈ a.intersect b ↔ p ∈ a ∧ p ∈ b := by
  unfold intersect
  split
  · rename_i h
    rw [Bool.or_eq_true] at h
    constructor
    · exact fun hp => absurd hp (not_mem_empty p)
    · rintro ⟨ha, hb⟩
      rcases h with h | h
      · exact absurd ha (not_mem_of_isEmpty h)
      · exact absurd hb (not_mem_of_isEmpty h)
  · rw [mem_ofEdges hp, mem_iff, mem_iff]
    omega

theorem covers_of_forall_mem (h : ∀ p ∈ b, p ∈ a) : a.covers b = true := by
  cases hb : b.isEmpty with
  | true => rw [covers, hb, Bool.true_or]
  | false =>
    obtain ⟨hw, hh⟩ := isEmpty_eq_false_iff.mp hb
    have hfirst := h ⟨b.x, b.y⟩ (mem_iff.mpr (by simp only [right, bottom]; omega))
    have hlast := h ⟨b.lastX, b.lastY⟩
      (mem_iff.mpr (by simp only [lastX, lastY, right, bottom]; omega))
    simp only [covers, hb, not_isEmpty_of_mem hfirst, Bool.false_or, Bool.not_false, Bool.true_and,
      Bool.and_eq_true, decide_eq_true_eq]
    simp only [mem_iff, lastX, lastY] at hfirst hlast
    omega

/-- A box all of whose points a buffer can have. -/
def OnScreen (b : Box) : Prop := ∀ p ∈ b, p.OnScreen

/-- No clamp takes a box out of the screen that one of its parts lies on. -/
theorem OnScreen.intersect (h : b.OnScreen) (a : Box) : (a.intersect b).OnScreen := by
  intro p hp
  unfold Box.intersect at hp
  split at hp
  · exact absurd hp (not_mem_empty p)
  rename_i hne
  simp only [Bool.or_eq_true, not_or, isEmpty_iff] at hne
  have hb : b.x < b.right ∧ b.y < b.bottom := by
    simp only [right, bottom]
    omega
  obtain ⟨hx, -, hy, -⟩ := h ⟨b.x, b.y⟩ (mem_iff.mpr (by dsimp only; omega))
  obtain ⟨-, hx', -, hy'⟩ := h ⟨b.right - 1, b.bottom - 1⟩ (mem_iff.mpr (by dsimp only; omega))
  dsimp only at hx hx' hy hy'
  unfold ofEdges at hp
  dsimp only at hp
  split at hp
  · exact absurd hp (not_mem_empty p)
  rename_i hlt
  rw [mem_ofSize] at hp
  simp only [clampCoord, coordMin, coordMax] at *
  exact ⟨by omega, by simp only [coordMax]; omega, by omega, by simp only [coordMax]; omega⟩

theorem OnScreen.mem_intersect (h : b.OnScreen) : p ∈ a.intersect b ↔ p ∈ a ∧ p ∈ b := by
  constructor
  · intro hp
    exact (Box.mem_intersect (h.intersect a p hp)).mp hp
  · intro hp
    exact (Box.mem_intersect (h p hp.2)).mpr hp

theorem OnScreen.ofCorners {c d : Point} (hc : c.OnScreen) (hd : d.OnScreen) :
    (ofCorners c d).OnScreen := by
  intro p hp
  rw [ofCorners_of_onScreen hc hd, mem_iff] at hp
  obtain ⟨hx, hx', hy, hy'⟩ := hc
  obtain ⟨gx, gx', gy, gy'⟩ := hd
  simp only [right, bottom] at hp
  exact ⟨by omega, by omega, by omega, by omega⟩

theorem mem_union (hp : p.OnScreen) (h : p ∈ a ∨ p ∈ b) : p ∈ a.union b := by
  unfold union
  split
  · rename_i ha
    exact h.resolve_left (not_mem_of_isEmpty ha)
  split
  · rename_i hb
    exact h.resolve_right (not_mem_of_isEmpty hb)
  · rw [mem_ofEdges hp]
    simp only [mem_iff] at h
    omega

end Box

end Scanline

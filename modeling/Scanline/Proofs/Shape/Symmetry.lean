import Scanline.Proofs.Shape.Disk
import Scanline.Proofs.Shape.Pixels
/-! Circles and disks under the symmetries of the plane that keep the axes. Whether a point belongs to
one depends only on its two distances from the center, in either order: the rows of a disk are also
its columns. -/

namespace Scanline

namespace Circle
variable {c d p q : Point} {r a b : Int}

/-- A row at distance `b` that reaches `a` columns out means a column there that reaches the row. -/
theorem le_halfWidth_swap (hr : 0 ≤ r) (ha : 0 ≤ a) (hb : 0 ≤ b) (hbr : b ≤ r)
    (h : a ≤ halfWidth r (octantEnd r) b) : b ≤ halfWidth r (octantEnd r) a := by
  rcases Int.lt_or_eq_of_le hb with hpos | rfl
  · have hr' : 0 < r := Int.lt_of_lt_of_le hpos hbr
    have hend := (octantEnd_bounds hr).1
    by_cases hrow : b ≤ octantEnd r
    · by_cases hcolumn : a ≤ octantEnd r
      · rw [← (le_halfWidth_octantHeight hr ha hcolumn).2]
        exact le_octantHeight_of_le hr' ha hcolumn hrow
      · rw [← (le_halfWidth_octantHeight hr hb hrow).2,
          le_octantHeight_iff hr' hb (by omega)] at h
        exact (le_halfWidth_iff hr' hend (Int.not_le.mp hcolumn) hpos).mpr h
    · have hlast := Int.not_le.mp hrow
      have hcolumn := Int.le_trans h (halfWidth_le_octantEnd hr' hlast hbr)
      rw [← (le_halfWidth_octantHeight hr ha hcolumn).2, le_octantHeight_iff hr' ha hpos]
      exact inside_mono ha h hpos (Int.le_refl b) (inside_halfWidth hr' hlast hbr)
  · exact (halfWidth_bounds hr _ _).1

/-- `q` lies as far from `d` along the two axes as `p` from `c`, or along the other of the two. -/
def SameOffsets (c p d q : Point) : Prop :=
  ((q.x - d.x).natAbs = (p.x - c.x).natAbs ∧ (q.y - d.y).natAbs = (p.y - c.y).natAbs) ∨
    ((q.x - d.x).natAbs = (p.y - c.y).natAbs ∧ (q.y - d.y).natAbs = (p.x - c.x).natAbs)

theorem SameOffsets.symm (h : SameOffsets c p d q) : SameOffsets d q c p := by
  rcases h with ⟨hx, hy⟩ | ⟨hx, hy⟩
  · exact .inl ⟨hx.symm, hy.symm⟩
  · exact .inr ⟨hy.symm, hx.symm⟩

theorem SameOffsets.mem_disk (h : SameOffsets c p d q) (hp : p ∈ disk c r) : q ∈ disk d r := by
  obtain ⟨hr, hy, hx⟩ := Circle.mem_disk.mp hp
  rw [Circle.mem_disk]
  rcases h with ⟨hqx, hqy⟩ | ⟨hqx, hqy⟩
  · rw [hqx, hqy]
    exact ⟨hr, hy, hx⟩
  · have hwidth := (halfWidth_bounds hr (octantEnd r) (p.y - c.y).natAbs).2
    rw [hqx, hqy]
    refine ⟨hr, Int.le_trans hx hwidth, ?_⟩
    exact le_halfWidth_swap hr (Int.natCast_nonneg _) (Int.natCast_nonneg _) hy hx

theorem SameOffsets.mem_outline (h : SameOffsets c p d q) (hp : p ∈ outline c r) :
    q ∈ outline d r := by
  obtain ⟨hr, x, hx, hx', hoffsets⟩ := mem_outline_iff_natAbs.mp hp
  refine mem_outline_iff_natAbs.mpr ⟨hr, x, hx, hx', ?_⟩
  rcases h with ⟨hqx, hqy⟩ | ⟨hqx, hqy⟩
  · rw [hqx, hqy]
    exact hoffsets
  · rw [hqx, hqy]
    exact hoffsets.symm.imp And.symm And.symm

end Circle

namespace Shape

/-- The shapes that have a center and a radius. -/
inductive Round : (Point → Int → Shape) → Prop
  | circle : Round Shape.circle
  | disk : Round Shape.disk

namespace Round
variable {k : Point → Int → Shape} (hk : Round k) {c d p q : Point} {r : Int}
include hk

theorem box_eq (c : Point) (r : Int) : (k c r).box = Circle.box c r := by
  cases hk with
  | circle => rfl
  | disk => rfl

theorem orient_eq (f : Frame) (c : Point) (r : Int) :
    (k c r).orient f = k (f.transformPoint c) r := by
  cases hk with
  | circle => rfl
  | disk => rfl

theorem natAbs_le (h : p ∈ (k c r).pixels) :
    ((p.x - c.x).natAbs : Int) ≤ r ∧ ((p.y - c.y).natAbs : Int) ≤ r := by
  cases hk with
  | circle => exact Circle.natAbs_le_of_mem_outline h
  | disk => exact Circle.natAbs_le_of_mem_disk h

theorem mem_of_sameOffsets (hsame : Circle.SameOffsets c p d q) (h : p ∈ (k c r).pixels) :
    q ∈ (k d r).pixels := by
  cases hk with
  | circle => exact hsame.mem_outline h
  | disk => exact hsame.mem_disk h

theorem mem_iff_of_sameOffsets (hsame : Circle.SameOffsets c p d q) :
    q ∈ (k d r).pixels ↔ p ∈ (k c r).pixels :=
  ⟨hk.mem_of_sameOffsets hsame.symm, hk.mem_of_sameOffsets hsame⟩

end Round

end Shape

end Scanline

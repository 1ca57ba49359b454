import Mathlib.Data.Int.ConditionallyCompleteOrder
import Scanline.Proofs.Shape.Outline
/-! Disks and the circles around them. The rows of a disk are those of the walk along the octant,
each of them ends in the outline on both sides, and nothing within the radius is left out. -/

namespace Scanline.Circle

variable {c p : Point} {r a b : Int}

/-- The rows of the disk of radius `r` come to the one at distance `dy` with half width `w`. -/
def RowWalked (r dy w : Int) : Prop := ∃ n, (dy, w) ∈ (takeSteps Rows.next? n (Rows.start r)).1

theorem yields_rows (hr : 0 ≤ r) : ∃ rows, Yields Rows.next? (Rows.start r) rows ∧
    rows.Perm ((intRange 0 r).map fun dy => (dy, halfWidth r (octantEnd r) dy)) := by
  rcases Int.lt_or_eq_of_le hr with hpos | rfl
  · have hend := octantEnd_bounds hr
    obtain ⟨rows, hrows, hperm⟩ := Rows.yields hpos (Walk.onCircle_start hpos)
      (by simp only [Walk.start]; omega)
    refine ⟨rows, hrows, ?_⟩
    rw [← intRange_append (show (0 : Int) ≤ octantEnd r + 1 by omega) hend.2]
    exact hperm
  · exact ⟨_, .step rfl (.done rfl), .refl _⟩

theorem rowWalked_iff (hr : 0 ≤ r) :
    RowWalked r a b ↔ 0 ≤ a ∧ a ≤ r ∧ b = halfWidth r (octantEnd r) a := by
  obtain ⟨rows, hrows, hperm⟩ := yields_rows hr
  rw [RowWalked, hrows.exists_mem_takeSteps, hperm.mem_iff, List.mem_map]
  constructor
  · rintro ⟨dy, hdy, heq⟩
    rw [Prod.mk.injEq] at heq
    obtain ⟨rfl, rfl⟩ := heq
    obtain ⟨hdy, hdy'⟩ := mem_intRange.mp hdy
    exact ⟨hdy, hdy', rfl⟩
  · rintro ⟨ha, ha', rfl⟩
    exact ⟨a, mem_intRange.mpr ⟨ha, ha'⟩, rfl⟩

theorem mem_disk_iff_rowWalked (hr : 0 ≤ r) : p ∈ disk c r ↔
    ∃ w, RowWalked r (p.y - c.y).natAbs w ∧ ((p.x - c.x).natAbs : Int) ≤ w := by
  rw [mem_disk]
  constructor
  · rintro ⟨-, hy, hx⟩
    exact ⟨_, (rowWalked_iff hr).mpr ⟨Int.natCast_nonneg _, hy, rfl⟩, hx⟩
  · rintro ⟨w, hrow, hx⟩
    obtain ⟨-, hy, rfl⟩ := (rowWalked_iff hr).mp hrow
    exact ⟨hr, hy, hx⟩

section PastTheOctant
variable (hr : 0 < r) (hb : octantEnd r < b) (hb' : b ≤ r)
include hr hb hb'

theorem inside_halfWidth : inside r (halfWidth r (octantEnd r) b) b = true := by
  have hend := (octantEnd_bounds (Int.le_of_lt hr)).1
  rcases Int.lt_or_eq_of_le (halfWidth_bounds (Int.le_of_lt hr) (octantEnd r) b).1 with hw | hw
  · exact (le_halfWidth_iff hr hend hb hw).mp (Int.le_refl _)
  · rw [← hw]
    have hsq : (2 * b - 1) * (2 * b - 1) ≤ (2 * r - 1) * (2 * r - 1) :=
      mul_self_le_mul_self (by omega) (by omega)
    have hr' : (2 * r - 1) * (2 * r - 1) = 4 * (r * r) - 4 * r + 1 := by ring
    apply inside_of_le
    omega

theorem halfWidth_le_octantEnd : halfWidth r (octantEnd r) b ≤ octantEnd r := by
  have hend := (octantEnd_bounds (Int.le_of_lt hr)).1
  have hin := inside_halfWidth hr hb hb'
  by_contra hwide
  -- Both coordinates are past the octant, so its diagonal would go on for one more column.
  have hdiag : inside r (octantEnd r + 1) (octantEnd r + 1) = true :=
    inside_mono (by omega) (by omega) (by omega) (by omega) hin
  have hle := (le_octantEnd_iff hr (by omega)).mpr hdiag
  omega

/-- A row past the octant ends in the column whose height it is. -/
theorem octantHeight_halfWidth : octantHeight r (halfWidth r (octantEnd r) b) = b := by
  have hend := (octantEnd_bounds (Int.le_of_lt hr)).1
  have hw := (halfWidth_bounds (Int.le_of_lt hr) (octantEnd r) b).1
  have hle := halfWidth_le_octantEnd hr hb hb'
  apply octantHeight_eq hr hw (by omega) (inside_halfWidth hr hb hb')
  intro habove
  -- One row up at this width is farther out than one column on in this row.
  have hnext : inside r (halfWidth r (octantEnd r) b + 1) b = true := by
    rw [inside_iff] at habove ⊢
    generalize halfWidth r (octantEnd r) b = w at *
    have hup : (2 * (b + 1) - 1) * (2 * (b + 1) - 1) = (2 * b - 1) * (2 * b - 1) + 8 * b := by ring
    have hon : (w + 1) * (w + 1) = w * w + (2 * w + 1) := by ring
    omega
  have hgt := (le_halfWidth_iff hr hend hb (by omega)).mpr hnext
  omega

end PastTheOctant

/-- The ends of the rows of a disk lie on its outline. -/
theorem mem_outline_of_rowEnd (hr : 0 ≤ r) (hy : ((p.y - c.y).natAbs : Int) ≤ r)
    (hx : ((p.x - c.x).natAbs : Int) = halfWidth r (octantEnd r) (p.y - c.y).natAbs) :
    p ∈ outline c r := by
  rcases Int.lt_or_eq_of_le hr with hpos | rfl
  · by_cases hlast : ((p.y - c.y).natAbs : Int) ≤ octantEnd r
    · have hheight := (le_halfWidth_octantHeight hr (Int.natCast_nonneg _) hlast).2
      exact mem_outline_iff_natAbs.mpr
        ⟨hr, (p.y - c.y).natAbs, Int.natCast_nonneg _, hlast, .inr ⟨hx.trans hheight.symm, rfl⟩⟩
    · have hcolumn := halfWidth_le_octantEnd hpos (Int.not_le.mp hlast) hy
      have hheight := octantHeight_halfWidth hpos (Int.not_le.mp hlast) hy
      rw [← hx] at hcolumn hheight
      exact mem_outline_iff_natAbs.mpr
        ⟨hr, (p.x - c.x).natAbs, Int.natCast_nonneg _, hcolumn, .inl ⟨rfl, hheight.symm⟩⟩
  · have hw := halfWidth_bounds (Int.le_refl 0) (octantEnd 0) (p.y - c.y).natAbs
    have hheight := octantHeight_bounds (Int.le_refl 0) 0
    refine mem_outline_iff_natAbs.mpr ⟨hr, 0, Int.le_refl 0, (octantEnd_bounds hr).1, .inl ?_⟩
    omega

section Rows
variable {y : Int} (hr : 0 ≤ r) (hy : ((y - c.y).natAbs : Int) ≤ r)
include hr hy

/-- A row of a disk spans its half width to both sides of the center. -/
theorem row_eq_Icc : {x | (⟨x, y⟩ : Point) ∈ disk c r} =
    Set.Icc (c.x - halfWidth r (octantEnd r) (y - c.y).natAbs)
      (c.x + halfWidth r (octantEnd r) (y - c.y).natAbs) := by
  ext x
  rw [Set.mem_ofPred_eq, mem_disk, Set.mem_Icc]
  dsimp only
  omega

/-- In each row the first and the last pixel of the disk belong to the outline. -/
theorem rowEnds_mem_outline : ∃ first last,
    IsLeast {x | (⟨x, y⟩ : Point) ∈ disk c r} first ∧
    IsGreatest {x | (⟨x, y⟩ : Point) ∈ disk c r} last ∧
    ⟨first, y⟩ ∈ outline c r ∧ ⟨last, y⟩ ∈ outline c r := by
  have hw := (halfWidth_bounds hr (octantEnd r) (y - c.y).natAbs).1
  rw [row_eq_Icc hr hy]
  refine ⟨_, _, isLeast_Icc (by omega), isGreatest_Icc (by omega), ?_, ?_⟩
  · apply mem_outline_of_rowEnd hr hy
    dsimp only
    omega
  · apply mem_outline_of_rowEnd hr hy
    dsimp only
    omega

end Rows

theorem inside_of_distance (ha : 0 < a) (h : a * a + b * b ≤ r * r) : inside r b a = true := by
  have hsq : (2 * a - 1) * (2 * a - 1) = 4 * (a * a) - 4 * a + 1 := by ring
  apply inside_of_le
  omega

/-- Rows are as wide as the radius allows. -/
theorem le_halfWidth_of_distance (hr : 0 ≤ r) (ha : 0 ≤ a) (hb : 0 ≤ b)
    (h : a * a + b * b ≤ r * r) : a ≤ halfWidth r (octantEnd r) b := by
  rcases Int.lt_or_eq_of_le ha with hpos | rfl
  · have hr' : 0 < r := by
      rcases Int.lt_or_eq_of_le hr with hr' | rfl
      · exact hr'
      · have hsq : 0 < a * a := Int.mul_pos hpos hpos
        have hsq' : 0 ≤ b * b := mul_self_nonneg b
        omega
    by_cases hlast : b ≤ octantEnd r
    · rw [halfWidth, if_neg (by omega), if_pos hlast]
      exact (le_octantHeight_iff hr' hb hpos).mpr (inside_of_distance hpos h)
    · have hend := (octantEnd_bounds hr).1
      apply (le_halfWidth_iff hr' hend (Int.not_le.mp hlast) hpos).mpr
      exact inside_of_distance (by omega) (by rw [Int.add_comm]; exact h)
  · exact (halfWidth_bounds hr _ _).1

theorem mem_disk_of_distance (hr : 0 ≤ r) (h : distance c p ≤ r * r) : p ∈ disk c r := by
  rw [distance_eq_natAbs] at h
  have hsq : 0 ≤ ((p.x - c.x).natAbs : Int) * (p.x - c.x).natAbs := mul_self_nonneg _
  refine mem_disk.mpr ⟨hr, ?_, ?_⟩
  · apply (mul_self_le_mul_self_iff (Int.natCast_nonneg _) hr).mpr
    omega
  · exact le_halfWidth_of_distance hr (Int.natCast_nonneg _) (Int.natCast_nonneg _) h

end Scanline.Circle

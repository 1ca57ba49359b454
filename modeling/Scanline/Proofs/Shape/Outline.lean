import Scanline.Proofs.Shape.Octant
/-! The outline of a circle and the walk along its octant. The outline is the walk seen in the eight
mirrors around the center, it fits the radius to half a pixel, and the disk covers it. -/

namespace Scanline.Circle

variable {c p : Point} {r a b : Int}

/-- The walk along the octant of radius `r` comes to `(a, b)`. -/
def Walked (r a b : Int) : Prop := ∃ n, (a, b) ∈ (takeSteps Walk.next? n (Walk.start r)).1

/-- The points at an offset from the center and at its mirror images. -/
def images (c : Point) (a b : Int) : Set Point :=
  {p | ∃ s t : Int, (s = 1 ∨ s = -1) ∧ (t = 1 ∨ t = -1) ∧
    (p = ⟨c.x + s * a, c.y + t * b⟩ ∨ p = ⟨c.x + s * b, c.y + t * a⟩)}

theorem yields_start (hr : 0 ≤ r) : Yields Walk.next? (Walk.start r)
    ((intRange 0 (octantEnd r)).map fun x => (x, octantHeight r x)) := by
  rcases Int.lt_or_eq_of_le hr with hpos | rfl
  · exact (Walk.onCircle_start hpos).yields hpos
  · exact .step rfl (.done rfl)

theorem walked_iff (hr : 0 ≤ r) :
    Walked r a b ↔ 0 ≤ a ∧ a ≤ octantEnd r ∧ b = octantHeight r a := by
  rw [Walked, (yields_start hr).exists_mem_takeSteps, List.mem_map]
  constructor
  · rintro ⟨x, hx, heq⟩
    rw [Prod.mk.injEq] at heq
    obtain ⟨rfl, rfl⟩ := heq
    obtain ⟨hx, hx'⟩ := mem_intRange.mp hx
    exact ⟨hx, hx', rfl⟩
  · rintro ⟨ha, ha', rfl⟩
    exact ⟨a, mem_intRange.mpr ⟨ha, ha'⟩, rfl⟩

theorem not_walked (hr : r < 0) : ¬Walked r a b := by
  rintro ⟨n, hn⟩
  cases n with
  | zero => cases hn
  | succ n =>
    rw [takeSteps, Walk.next?_eq_none hr] at hn
    cases hn

theorem mem_images : p ∈ images c a b ↔ p ∈ mirrored c a b := by
  rw [mem_mirrored]
  rcases p with ⟨x, y⟩
  simp only [images, Set.mem_ofPred_eq, Point.mk.injEq]
  constructor
  · rintro ⟨s, t, rfl | rfl, rfl | rfl, h⟩
    all_goals omega
  · rintro (⟨hx | hx, hy | hy⟩ | ⟨hx | hx, hy | hy⟩)
    · exact ⟨1, 1, .inl rfl, .inl rfl, .inl (by omega)⟩
    · exact ⟨1, -1, .inl rfl, .inr rfl, .inl (by omega)⟩
    · exact ⟨-1, 1, .inr rfl, .inl rfl, .inl (by omega)⟩
    · exact ⟨-1, -1, .inr rfl, .inr rfl, .inl (by omega)⟩
    · exact ⟨1, 1, .inl rfl, .inl rfl, .inr (by omega)⟩
    · exact ⟨1, -1, .inl rfl, .inr rfl, .inr (by omega)⟩
    · exact ⟨-1, 1, .inr rfl, .inl rfl, .inr (by omega)⟩
    · exact ⟨-1, -1, .inr rfl, .inr rfl, .inr (by omega)⟩

theorem mem_outline_iff_walked :
    p ∈ outline c r ↔ ∃ a b, Walked r a b ∧ p ∈ images c a b := by
  rw [mem_outline]
  constructor
  · rintro ⟨hr, x, hx, hx', hp⟩
    exact ⟨x, _, (walked_iff hr).mpr ⟨hx, hx', rfl⟩, mem_images.mpr hp⟩
  · rintro ⟨a, b, hw, hp⟩
    have hr : 0 ≤ r := by
      by_contra hneg
      exact not_walked (Int.not_le.mp hneg) hw
    obtain ⟨ha, ha', rfl⟩ := (walked_iff hr).mp hw
    exact ⟨hr, a, ha, ha', mem_images.mp hp⟩

/-- What is inside the circle on the diagonal is inside it in every column of the octant. -/
theorem inside_of_le_octantEnd (hr : 0 < r) (ha : 0 ≤ a) (ha' : a ≤ octantEnd r) (hb : 0 < b)
    (hb' : b ≤ octantEnd r) : inside r a b = true := by
  have hend := (le_octantEnd_iff hr (show 0 < octantEnd r by omega)).mp (Int.le_refl _)
  exact inside_mono ha ha' hb hb' hend

theorem le_octantHeight_of_le (hr : 0 < r) (ha : 0 ≤ a) (ha' : a ≤ octantEnd r)
    (hb : b ≤ octantEnd r) : b ≤ octantHeight r a := by
  by_cases hpos : 0 < b
  · exact (le_octantHeight_iff hr ha hpos).mpr (inside_of_le_octantEnd hr ha ha' hpos hb)
  · exact Int.le_trans (Int.not_lt.mp hpos) (octantHeight_bounds (Int.le_of_lt hr) a).1

theorem octantHeight_pos (hr : 0 < r) (ha : 0 ≤ a) (ha' : a ≤ octantEnd r) :
    0 < octantHeight r a := by
  have hone : inside r a 1 = true := by
    rcases Int.lt_or_eq_of_le ha with hpos | rfl
    · exact inside_of_le_octantEnd hr ha ha' Int.one_pos (by omega)
    · rw [inside_iff]
      have hsq : r ≤ r * r := le_mul_of_one_le_left (by omega) hr
      omega
  exact (le_octantHeight_iff hr ha Int.one_pos).mpr hone

/-- The height of a column is exact to half a pixel. -/
theorem distance_octantHeight (hr : 0 ≤ r) (ha : 0 ≤ a) (ha' : a ≤ octantEnd r) :
    r * r - r ≤ a * a + octantHeight r a * octantHeight r a ∧
      a * a + octantHeight r a * octantHeight r a ≤ r * r + r := by
  rcases Int.lt_or_eq_of_le hr with hpos | rfl
  · have hheight := (octantHeight_bounds hr a).2
    have hb := octantHeight_pos hpos ha ha'
    have hin := (le_octantHeight_iff hpos ha hb).mp (Int.le_refl _)
    have hout := mt (le_octantHeight_iff hpos ha (b := octantHeight r a + 1) (by omega)).mpr
      (by omega)
    generalize octantHeight r a = h at *
    rw [inside_iff] at hin hout
    have hlow : (2 * h - 1) * (2 * h - 1) = 4 * (h * h) - 4 * h + 1 := by ring
    have hhigh : (2 * (h + 1) - 1) * (2 * (h + 1) - 1) = 4 * (h * h) + 4 * h + 1 := by ring
    omega
  · obtain rfl : a = 0 := Int.le_antisymm ha' ha
    decide

/-- No row is wider than the radius allows. -/
theorem distance_halfWidth (hr : 0 ≤ r) (hb : 0 ≤ b) (hb' : b ≤ r) :
    halfWidth r (octantEnd r) b * halfWidth r (octantEnd r) b + b * b ≤ r * r + r := by
  rcases Int.lt_or_eq_of_le hr with hpos | rfl
  · by_cases hlast : b ≤ octantEnd r
    · have hd := (distance_octantHeight hr hb hlast).2
      rw [halfWidth, if_neg (by omega), if_pos hlast]
      omega
    · have hend := (octantEnd_bounds hr).1
      have hw := (halfWidth_bounds hr (octantEnd r) b).1
      have hsq : b * b ≤ r * r := mul_self_le_mul_self hb hb'
      rcases Int.lt_or_eq_of_le hw with hwide | hzero
      · have hin := (le_halfWidth_iff hpos hend (Int.not_le.mp hlast) hwide).mp (Int.le_refl _)
        generalize halfWidth r (octantEnd r) b = w at *
        rw [inside_iff] at hin
        have hlow : (2 * b - 1) * (2 * b - 1) = 4 * (b * b) - 4 * b + 1 := by ring
        omega
      · rw [← hzero]
        omega
  · obtain rfl : b = 0 := Int.le_antisymm hb' hb
    decide

/-- Both rows that a column of the octant reaches are as wide as the outline is there. -/
theorem le_halfWidth_octantHeight (hr : 0 ≤ r) (ha : 0 ≤ a) (ha' : a ≤ octantEnd r) :
    a ≤ halfWidth r (octantEnd r) (octantHeight r a) ∧
      octantHeight r a = halfWidth r (octantEnd r) a := by
  rcases Int.lt_or_eq_of_le hr with hpos | rfl
  · have hend := (octantEnd_bounds hr).1
    have hb := octantHeight_pos hpos ha ha'
    refine ⟨?_, by rw [halfWidth, if_neg (by omega), if_pos ha']⟩
    by_cases hlast : octantHeight r a ≤ octantEnd r
    · rw [halfWidth, if_neg (by omega), if_pos hlast]
      exact le_octantHeight_of_le hpos (Int.le_of_lt hb) hlast ha'
    · rcases Int.lt_or_eq_of_le ha with hwide | rfl
      · apply (le_halfWidth_iff hpos hend (Int.not_le.mp hlast) hwide).mpr
        exact (le_octantHeight_iff hpos ha hb).mp (Int.le_refl _)
      · exact (halfWidth_bounds hr _ _).1
  · obtain rfl : a = 0 := Int.le_antisymm ha' ha
    decide

theorem eq_add_or_eq_sub_iff {a b x : Int} (hx : 0 ≤ x) :
    a = b + x ∨ a = b - x ↔ ((a - b).natAbs : Int) = x := by
  omega

theorem mem_mirrored_iff_natAbs {x y : Int} (hx : 0 ≤ x) (hy : 0 ≤ y) : p ∈ mirrored c x y ↔
    ((((p.x - c.x).natAbs : Int) = x ∧ ((p.y - c.y).natAbs : Int) = y) ∨
      (((p.x - c.x).natAbs : Int) = y ∧ ((p.y - c.y).natAbs : Int) = x)) := by
  rw [mem_mirrored, eq_add_or_eq_sub_iff hx, eq_add_or_eq_sub_iff hx, eq_add_or_eq_sub_iff hy,
    eq_add_or_eq_sub_iff hy]

/-- The points of the outline lie a column and its height away from the center. -/
theorem mem_outline_iff_natAbs : p ∈ outline c r ↔ 0 ≤ r ∧ ∃ x, 0 ≤ x ∧ x ≤ octantEnd r ∧
    ((((p.x - c.x).natAbs : Int) = x ∧ ((p.y - c.y).natAbs : Int) = octantHeight r x) ∨
      (((p.x - c.x).natAbs : Int) = octantHeight r x ∧ ((p.y - c.y).natAbs : Int) = x)) := by
  rw [mem_outline]
  constructor
  · rintro ⟨hr, x, hx, hx', hp⟩
    exact ⟨hr, x, hx, hx', (mem_mirrored_iff_natAbs hx (octantHeight_bounds hr x).1).mp hp⟩
  · rintro ⟨hr, x, hx, hx', hp⟩
    exact ⟨hr, x, hx, hx', (mem_mirrored_iff_natAbs hx (octantHeight_bounds hr x).1).mpr hp⟩

section Offsets
variable (h : p ∈ outline c r)
include h

theorem mem_disk_of_mem_outline : p ∈ disk c r := by
  obtain ⟨hr, x, hx, hx', hp⟩ := mem_outline_iff_natAbs.mp h
  have hfits := natAbs_le_of_mem_outline h
  obtain ⟨hwide, hheight⟩ := le_halfWidth_octantHeight hr hx hx'
  refine mem_disk.mpr ⟨hr, hfits.2, ?_⟩
  rcases hp with ⟨hpx, hpy⟩ | ⟨hpx, hpy⟩
  · rw [hpx, hpy]
    exact hwide
  · rw [hpx, hpy]
    exact Int.le_of_eq hheight

end Offsets

/-- The square of the distance between two points. -/
def distance (c p : Point) : Int :=
  (p.x - c.x) * (p.x - c.x) + (p.y - c.y) * (p.y - c.y)

theorem distance_eq_natAbs (c p : Point) : distance c p =
    (p.x - c.x).natAbs * (p.x - c.x).natAbs + (p.y - c.y).natAbs * (p.y - c.y).natAbs := by
  rw [distance, Int.natAbs_mul_self' (p.x - c.x), Int.natAbs_mul_self' (p.y - c.y)]

theorem distance_of_mem_outline (h : p ∈ outline c r) : r * r - r ≤ distance c p := by
  obtain ⟨hr, x, hx, hx', hp⟩ := mem_outline_iff_natAbs.mp h
  have hd := (distance_octantHeight hr hx hx').1
  rw [distance_eq_natAbs]
  rcases hp with ⟨hpx, hpy⟩ | ⟨hpx, hpy⟩
  · rw [hpx, hpy]
    exact hd
  · rw [hpx, hpy]
    omega

theorem distance_of_mem_disk (h : p ∈ disk c r) : distance c p ≤ r * r + r := by
  obtain ⟨hr, hy, hx⟩ := mem_disk.mp h
  have hd := distance_halfWidth hr (Int.natCast_nonneg _) hy
  have hsq := mul_self_le_mul_self (Int.natCast_nonneg _) hx
  rw [distance_eq_natAbs]
  omega

end Scanline.Circle

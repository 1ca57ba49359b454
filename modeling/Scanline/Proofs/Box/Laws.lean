import Scanline.Proofs.Box.Hull
/-! Boxes as sets of points. Boxes that operations answer have their fields in range, and only the
empty box has no points, so that such a box is known by its points. Then the common part of two
boxes is exact everywhere, and their union as long as its extents reach. -/

namespace Scanline.Box

/-- The fields are in range, and only the empty box has no points. -/
structure Canonical (b : Box) : Prop extends b.InRange where
  eq_empty : b.isEmpty = true → b = empty

instance (b : Box) : Decidable b.Canonical :=
  decidable_of_iff (b.InRange ∧ (b.isEmpty = true → b = empty))
    ⟨fun ⟨hr, he⟩ => ⟨hr, he⟩, fun ⟨hr, he⟩ => ⟨hr, he⟩⟩

variable {a b c : Box} {p : Point}

theorem canonical_empty : empty.Canonical := ⟨inRange_empty, fun _ => rfl⟩

theorem ofSize_eq_empty {x y : Int} {w h : Nat} (hempty : (ofSize x y w h).isEmpty = true) :
    ofSize x y w h = empty := by
  unfold ofSize at hempty ⊢
  split
  · rfl
  · rename_i hpos
    rw [if_neg hpos] at hempty
    exact absurd (isEmpty_iff.mp hempty) hpos

theorem canonical_ofSize {x y : Int} {w h : Nat} (hr : (⟨x, y, w, h⟩ : Box).InRange) :
    (ofSize x y w h).Canonical := ⟨inRange_ofSize hr, ofSize_eq_empty⟩

theorem canonical_ofEdges (l t r b : Int) : (ofEdges l t r b).Canonical := by
  refine ⟨inRange_ofEdges l t r b, ?_⟩
  unfold ofEdges
  dsimp only
  split
  · exact fun _ => rfl
  · exact ofSize_eq_empty

theorem canonical_intersect (a b : Box) : (a.intersect b).Canonical := by
  unfold intersect
  split
  · exact canonical_empty
  · exact canonical_ofEdges _ _ _ _

theorem canonical_ofCorners (p q : Point) : (ofCorners p q).Canonical := canonical_ofEdges _ _ _ _

theorem canonical_translate (b : Box) (dx dy : Int) : (b.translate dx dy).Canonical := by
  unfold translate
  split
  · exact canonical_empty
  · exact canonical_ofEdges _ _ _ _

theorem Canonical.union (ha : a.Canonical) (hb : b.Canonical) : (a.union b).Canonical := by
  unfold Box.union
  split
  · exact hb
  split
  · exact ha
  · exact canonical_ofEdges _ _ _ _

/-- The first and the last point of a box that is not empty. -/
theorem corners_mem (h : b.isEmpty = false) :
    (⟨b.x, b.y⟩ : Point) ∈ b ∧ (⟨b.lastX, b.lastY⟩ : Point) ∈ b := by
  obtain ⟨hw, hh⟩ := isEmpty_eq_false_iff.mp h
  constructor
  · exact mem_iff.mpr (by simp only [right, bottom]; omega)
  · exact mem_iff.mpr (by simp only [lastX, lastY, right, bottom]; omega)

theorem eq_of_edges (hx : a.x = b.x) (hy : a.y = b.y) (hr : a.right = b.right)
    (hb : a.bottom = b.bottom) : a = b := by
  rcases a with ⟨x, y, w, h⟩
  rcases b with ⟨x', y', w', h'⟩
  simp only [right, bottom] at hx hy hr hb
  rw [mk.injEq]
  omega

theorem Canonical.eq_empty_of_forall (ha : a.Canonical) (h : ∀ p, p ∉ a) : a = empty := by
  apply ha.eq_empty
  cases hempty : a.isEmpty with
  | true => rfl
  | false => exact absurd (corners_mem hempty).1 (h _)

theorem Canonical.ext (ha : a.Canonical) (hb : b.Canonical) (h : ∀ p, p ∈ a ↔ p ∈ b) : a = b := by
  cases hempty : a.isEmpty with
  | true =>
    have hnone : ∀ p, p ∉ b := fun p hp => not_mem_of_isEmpty hempty ((h p).mpr hp)
    rw [ha.eq_empty hempty, hb.eq_empty_of_forall hnone]
  | false =>
    obtain ⟨hfirst, hlast⟩ := corners_mem hempty
    have hfirst' := (h _).mp hfirst
    obtain ⟨gfirst, glast⟩ := corners_mem (not_isEmpty_of_mem hfirst')
    have hlast' := mem_iff.mp ((h _).mp hlast)
    have gfirst' := mem_iff.mp ((h _).mpr gfirst)
    have glast' := mem_iff.mp ((h _).mpr glast)
    rw [mem_iff] at hfirst'
    simp only [lastX, lastY] at hlast' glast'
    dsimp only at hfirst' gfirst'
    apply eq_of_edges
    all_goals omega

/-- What boxes have outside a part of the screen makes no difference to their parts in it. -/
theorem intersect_congr (hc : c.OnScreen) (h : ∀ p ∈ c, p ∈ a ↔ p ∈ b) :
    a.intersect c = b.intersect c := by
  apply (canonical_intersect a c).ext (canonical_intersect b c)
  intro p
  rw [hc.mem_intersect, hc.mem_intersect]
  exact and_congr_left (h p)

theorem covers_iff : a.covers b = true ↔ ∀ p ∈ b, p ∈ a := by
  refine ⟨fun h p hp => ?_, covers_of_forall_mem⟩
  simp only [covers, not_isEmpty_of_mem hp, Bool.false_or, Bool.and_eq_true,
    decide_eq_true_eq] at h
  rw [mem_iff] at hp ⊢
  omega

theorem edges_of_covers (h : a.covers b = true) (hb : b.isEmpty = false) :
    a.x ≤ b.x ∧ a.y ≤ b.y ∧ b.right ≤ a.right ∧ b.bottom ≤ a.bottom := by
  obtain ⟨hfirst, hlast⟩ := corners_mem hb
  have hfirst' := mem_iff.mp (covers_iff.mp h _ hfirst)
  have hlast' := mem_iff.mp (covers_iff.mp h _ hlast)
  simp only [lastX, lastY] at hfirst' hlast'
  omega

theorem area_le_of_covers (h : a.covers b = true) : b.area ≤ a.area := by
  cases hb : b.isEmpty with
  | true =>
    rcases isEmpty_iff.mp hb with hw | hh
    · rw [area, hw, Nat.zero_mul]
      exact Nat.zero_le _
    · rw [area, hh, Nat.mul_zero]
      exact Nat.zero_le _
  | false =>
    obtain ⟨hx, hy, hr, hbot⟩ := edges_of_covers h hb
    simp only [right, bottom] at hr hbot
    exact Nat.mul_le_mul (by omega) (by omega)

/-- No clamp touches the common part of two boxes. -/
theorem mem_intersect_iff (ha : a.InRange) (hb : b.InRange) :
    p ∈ a.intersect b ↔ p ∈ a ∧ p ∈ b := by
  unfold intersect
  split
  · rename_i hempty
    rw [Bool.or_eq_true] at hempty
    refine iff_of_false (not_mem_empty p) ?_
    rintro ⟨hpa, hpb⟩
    rcases hempty with hempty | hempty
    · exact not_mem_of_isEmpty hempty hpa
    · exact not_mem_of_isEmpty hempty hpb
  · obtain ⟨hx, hx', hy, hy', hw, hh⟩ := ha
    obtain ⟨gx, gx', gy, gy', gw, gh⟩ := hb
    have hl : clampCoord (max a.x b.x) = max a.x b.x := by rw [clampCoord]; omega
    have ht : clampCoord (max a.y b.y) = max a.y b.y := by rw [clampCoord]; omega
    rw [ofEdges, hl, ht, mem_iff (b := a), mem_iff (b := b)]
    split
    · refine iff_of_false (not_mem_empty p) ?_
      omega
    · rw [mem_ofSize]
      simp only [right, bottom, sizeMax] at *
      omega

theorem intersect_comm (a b : Box) : a.intersect b = b.intersect a := by
  unfold intersect
  rw [Bool.or_comm, Int.max_comm a.x, Int.max_comm a.y, Int.min_comm a.right,
    Int.min_comm a.bottom]

theorem Canonical.intersect_self (ha : a.Canonical) : a.intersect a = a := by
  apply (canonical_intersect a a).ext ha
  intro p
  rw [mem_intersect_iff ha.toInRange ha.toInRange, and_self]

theorem intersect_empty (a : Box) : a.intersect empty = empty := by
  rw [intersect, isEmpty_empty, Bool.or_true, if_pos rfl]

theorem covers_intersect (ha : a.InRange) (hb : b.InRange) :
    a.covers (a.intersect b) = true ∧ b.covers (a.intersect b) = true := by
  constructor
  · exact covers_iff.mpr fun p hp => ((mem_intersect_iff ha hb).mp hp).1
  · exact covers_iff.mpr fun p hp => ((mem_intersect_iff ha hb).mp hp).2

theorem intersects_iff (ha : a.InRange) (hb : b.InRange) :
    a.intersects b = true ↔ ∃ p, p ∈ a ∧ p ∈ b := by
  rw [intersects, Bool.not_eq_true']
  constructor
  · intro h
    exact ⟨_, (mem_intersect_iff ha hb).mp (corners_mem h).1⟩
  · rintro ⟨p, hp⟩
    exact not_isEmpty_of_mem ((mem_intersect_iff ha hb).mpr hp)

theorem Canonical.union_comm (ha : a.Canonical) (hb : b.Canonical) : a.union b = b.union a := by
  unfold Box.union
  cases hempty : a.isEmpty with
  | true =>
    cases hempty' : b.isEmpty with
    | true => rw [ha.eq_empty hempty, hb.eq_empty hempty']
    | false => simp
  | false =>
    rw [Int.min_comm a.x, Int.min_comm a.y, Int.max_comm a.right, Int.max_comm a.bottom]
    simp

theorem empty_union (b : Box) : empty.union b = b := if_pos isEmpty_empty

theorem Canonical.union_empty (ha : a.Canonical) : a.union empty = a := by
  unfold Box.union
  cases hempty : a.isEmpty with
  | true => exact (ha.eq_empty hempty).symm
  | false => rfl

theorem Canonical.union_self (ha : a.Canonical) : a.union a = a := by
  cases hempty : a.isEmpty with
  | true => rw [ha.eq_empty hempty, empty_union]
  | false =>
    have hself : (Edges.ofBox a).join (Edges.ofBox a) = Edges.ofBox a := by
      simp only [Edges.join, Int.min_self, Int.max_self]
    rw [Edges.union_eq_cut hempty hempty, hself, Edges.cut_ofBox ha.toInRange hempty]

section Union
variable (ha : a.Canonical) (hb : b.Canonical)
include ha hb

/-- The edges of a union are exact as long as its extents reach. -/
theorem Canonical.union_edges (hea : a.isEmpty = false) (heb : b.isEmpty = false)
    (hw : max a.right b.right - min a.x b.x ≤ sizeMax)
    (hh : max a.bottom b.bottom - min a.y b.y ≤ sizeMax) :
    (a.union b).x = min a.x b.x ∧ (a.union b).y = min a.y b.y ∧
      (a.union b).right = max a.right b.right ∧ (a.union b).bottom = max a.bottom b.bottom := by
  have hjoin := (Edges.proper_ofBox ha.toInRange hea).join (Edges.proper_ofBox hb.toInRange heb)
  rw [Edges.union_eq_cut hea heb, hjoin.cut_eq]
  obtain ⟨-, -, hwidth, -, -, hheight⟩ := hjoin
  simp only [Edges.join, Edges.ofBox] at hwidth hheight
  refine ⟨rfl, rfl, ?_, ?_⟩
  · simp only [right, Edges.join, Edges.ofBox] at *
    omega
  · simp only [bottom, Edges.join, Edges.ofBox] at *
    omega

theorem Canonical.covers_union (h : a.isEmpty = true ∨ b.isEmpty = true ∨
      max a.right b.right - min a.x b.x ≤ sizeMax ∧ max a.bottom b.bottom - min a.y b.y ≤ sizeMax) :
    (a.union b).covers a = true ∧ (a.union b).covers b = true := by
  cases hea : a.isEmpty with
  | true =>
    rw [ha.eq_empty hea, empty_union]
    exact ⟨covers_iff.mpr fun p hp => absurd hp (not_mem_empty p), covers_iff.mpr fun p hp => hp⟩
  | false =>
    cases heb : b.isEmpty with
    | true =>
      rw [hb.eq_empty heb, ha.union_empty]
      exact ⟨covers_iff.mpr fun p hp => hp, covers_iff.mpr fun p hp => absurd hp (not_mem_empty p)⟩
    | false =>
      rw [hea, heb] at h
      obtain ⟨hw, hh⟩ := (h.resolve_left Bool.false_ne_true).resolve_left Bool.false_ne_true
      obtain ⟨hx, hy, hr, hbot⟩ := ha.union_edges hb hea heb hw hh
      constructor
      · refine covers_iff.mpr fun p hp => ?_
        rw [mem_iff] at hp ⊢
        omega
      · refine covers_iff.mpr fun p hp => ?_
        rw [mem_iff] at hp ⊢
        omega

/-- No box that covers both is smaller than the union. -/
theorem Canonical.union_least (hc : c.InRange) (h : c.covers a = true) (h' : c.covers b = true) :
    c.covers (a.union b) = true := by
  cases hea : a.isEmpty with
  | true =>
    rw [ha.eq_empty hea, empty_union]
    exact h'
  | false =>
    cases heb : b.isEmpty with
    | true =>
      rw [hb.eq_empty heb, ha.union_empty]
      exact h
    | false =>
      have hedges := edges_of_covers h hea
      have hedges' := edges_of_covers h' heb
      have hw := hc.w_le
      have hh := hc.h_le
      simp only [right, bottom] at hedges hedges'
      obtain ⟨hx, hy, hr, hbot⟩ := ha.union_edges hb hea heb
        (by simp only [right]; omega) (by simp only [bottom]; omega)
      refine covers_iff.mpr fun p hp => ?_
      rw [mem_iff, hx, hy, hr, hbot] at hp
      rw [mem_iff]
      simp only [right, bottom] at hp ⊢
      omega

end Union

/-- A union of boxes inside another box stays inside it, and holds what each of them has on a
screen. -/
theorem foldl_union (hc : c.InRange) {bs : List Box}
    (hbs : ∀ b ∈ bs, b.Canonical ∧ c.covers b = true) (ha : a.Canonical) (h : c.covers a = true) :
    (bs.foldl Box.union a).Canonical ∧ c.covers (bs.foldl Box.union a) = true ∧
      ∀ p : Point, p.OnScreen → (p ∈ a ∨ ∃ b ∈ bs, p ∈ b) → p ∈ bs.foldl Box.union a := by
  induction bs generalizing a with
  | nil =>
    refine ⟨ha, h, fun p _ hp => hp.resolve_right ?_⟩
    rintro ⟨b, hb, -⟩
    exact List.not_mem_nil hb
  | cons b bs ih =>
    obtain ⟨hb, hcover⟩ := hbs b List.mem_cons_self
    obtain ⟨hcanonical, hcovers, hmem⟩ := ih (fun b' hb' => hbs b' (List.mem_cons_of_mem b hb'))
      (ha.union hb) (ha.union_least hb hc h hcover)
    refine ⟨hcanonical, hcovers, fun p hon hp => hmem p hon ?_⟩
    rcases hp with hp | ⟨b', hb', hp⟩
    · exact .inl (mem_union hon (.inl hp))
    rcases List.mem_cons.mp hb' with rfl | hrest
    · exact .inl (mem_union hon (.inr hp))
    · exact .inr ⟨b', hrest, hp⟩

end Scanline.Box

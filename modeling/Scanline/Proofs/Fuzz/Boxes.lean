import Scanline.Proofs.Fuzz.Reading
/-! Trials of boxes. Every law that a trial checks holds of all boxes that a trial can read. -/

namespace Scanline.Fuzz.BoxTrial

variable {a b : Box} {p : Point} {t : BoxTrial}

theorem hullFits_iff : hullFits a b = true ↔ max a.right b.right - min a.x b.x ≤ sizeMax ∧
    max a.bottom b.bottom - min a.y b.y ≤ sizeMax := by
  simp only [hullFits, Bool.and_eq_true, decide_eq_true_eq]

theorem overlap_iff : overlap a b = true ↔ ∃ p, p ∈ a ∧ p ∈ b := by
  simp only [overlap, Bool.and_eq_true, Bool.not_eq_true', decide_eq_true_eq]
  constructor
  · rintro ⟨⟨⟨ha, hb⟩, hx⟩, hy⟩
    rw [Box.isEmpty_eq_false_iff] at ha hb
    refine ⟨⟨max a.x b.x, max a.y b.y⟩, Box.mem_iff.mpr ?_, Box.mem_iff.mpr ?_⟩
    · dsimp only
      omega
    · dsimp only
      omega
  · rintro ⟨p, hpa, hpb⟩
    refine ⟨⟨⟨Box.not_isEmpty_of_mem hpa, Box.not_isEmpty_of_mem hpb⟩, ?_⟩, ?_⟩
    · rw [Box.mem_iff] at hpa hpb
      omega
    · rw [Box.mem_iff] at hpa hpb
      omega

section Laws
variable (ha : a.Canonical) (hb : b.Canonical)
include ha hb

theorem area_intersect_le : (a.intersect b).area ≤ min a.area b.area := by
  obtain ⟨h, h'⟩ := Box.covers_intersect ha.toInRange hb.toInRange
  exact Nat.le_min.mpr ⟨Box.area_le_of_covers h, Box.area_le_of_covers h'⟩

theorem intersects_eq_overlap : a.intersects b = overlap a b := by
  rw [Bool.eq_iff_iff, Box.intersects_iff ha.toInRange hb.toInRange, overlap_iff]

theorem union_covers_both (h : (hullFits a b || a.isEmpty || b.isEmpty) = true) :
    (a.union b).covers a = true ∧ (a.union b).covers b = true := by
  apply ha.covers_union hb
  rw [Bool.or_eq_true, Bool.or_eq_true, hullFits_iff] at h
  rcases h with (hfits | hempty) | hempty
  · exact .inr (.inr hfits)
  · exact .inl hempty
  · exact .inr (.inl hempty)

theorem isHull_union (h : (hullFits a b && !a.isEmpty && !b.isEmpty) = true) :
    isHull (a.union b) a b = true := by
  simp only [Bool.and_eq_true, Bool.not_eq_true', hullFits_iff] at h
  obtain ⟨⟨⟨hw, hh⟩, hea⟩, heb⟩ := h
  obtain ⟨hx, hy, hr, hbot⟩ := ha.union_edges hb hea heb hw hh
  simp only [isHull, Bool.and_eq_true, decide_eq_true_eq]
  exact ⟨⟨⟨hx, hy⟩, hr⟩, hbot⟩

end Laws

theorem eq_empty_iff (ha : a.Canonical) : a.isEmpty = (a == Box.empty) := by
  rw [Bool.eq_iff_iff, beq_iff_eq]
  constructor
  · exact ha.eq_empty
  · rintro rfl
    rfl

theorem premise_holds {premise law : Bool} (h : premise = true → law = true) :
    (!premise || law) = true := by
  cases premise with
  | false => rfl
  | true => exact h rfl

theorem laws_hold (ha : t.a.Canonical) (hb : t.b.Canonical) : ∀ law ∈ t.laws, law.2 = true := by
  rcases t with ⟨a, b, p⟩
  dsimp only at ha hb
  obtain ⟨hmeet, hmeet'⟩ := Box.covers_intersect ha.toInRange hb.toInRange
  simp only [laws, List.forall_mem_cons, Bool.and_eq_true, beq_iff_eq, decide_eq_true_eq]
  refine ⟨Box.intersect_comm a b, ha.union_comm hb, ⟨hmeet, hmeet'⟩, area_intersect_le ha hb, ?_,
    ⟨ha.intersect_self, ha.union_self⟩, ha.union_empty, Box.intersect_empty a, eq_empty_iff ha,
    intersects_eq_overlap ha hb, ?_, ?_, ?_⟩
  · rw [Bool.eq_iff_iff, Bool.and_eq_true, decide_eq_true_eq, decide_eq_true_eq, decide_eq_true_eq]
    exact Box.mem_intersect_iff ha.toInRange hb.toInRange
  · apply premise_holds
    rw [Bool.and_eq_true]
    exact union_covers_both ha hb
  · exact premise_holds (isHull_union ha hb)
  · exact fun law hlaw => absurd hlaw List.not_mem_nil

theorem judge_of_canonical (ha : t.a.Canonical) (hb : t.b.Canonical) :
    t.judge.Upheld := by
  have hnone : t.laws.find? (fun law => !law.2) = none := by
    apply List.find?_eq_none.mpr
    intro law hlaw
    rw [laws_hold ha hb law hlaw]
    exact Bool.false_ne_true
  rw [judge, hnone]
  dsimp only
  split
  · exact .inr ⟨_, rfl⟩
  · exact .inl rfl

end Scanline.Fuzz.BoxTrial

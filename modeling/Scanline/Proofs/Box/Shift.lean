import Scanline.Proofs.Box.Laws
/-! Boxes moved by a shift. A box that leaves the coordinates at their low end is cut off. At the high
end the origin is clamped and the far edge is not, so that a box that starts past the last coordinate
comes back as one that starts on it. Up to there a moved box has the moved points and no others. -/

namespace Scanline

theorem clampCoord_le_iff_or {v x : Int} (hx : coordMin ≤ x) (hx' : x ≤ coordMax) :
    clampCoord v ≤ x ↔ v ≤ x ∨ x = coordMax := by
  simp only [clampCoord, coordMin, coordMax] at *
  omega

namespace Box
variable {b : Box} {dx dy : Int} {p : Point}

theorem Canonical.origin_inRange (hb : b.Canonical) : (⟨b.x, b.y⟩ : Point).InRange :=
  ⟨hb.x_ge, hb.x_le, hb.y_ge, hb.y_le⟩

section Edges
variable {l t r d : Int} (hw : r - l ≤ sizeMax) (hh : d - t ≤ sizeMax)
include hw hh

/-- Edges no farther apart than an extent hold the points between them, and where the first edge is
past the last coordinate, that coordinate. -/
theorem mem_ofEdges_of_inRange (hp : p.InRange) : p ∈ ofEdges l t r d ↔
    (l ≤ p.x ∨ p.x = coordMax) ∧ p.x < r ∧ (t ≤ p.y ∨ p.y = coordMax) ∧ p.y < d := by
  obtain ⟨hx, hx', hy, hy'⟩ := hp
  have hleft := clampCoord_le_iff_or (v := l) hx hx'
  have htop := clampCoord_le_iff_or (v := t) hy hy'
  rw [ofEdges]
  split
  · rename_i hnone
    refine iff_of_false (not_mem_empty p) ?_
    omega
  · rw [mem_ofSize, hleft, htop]
    simp only [clampCoord, coordMin, coordMax, sizeMax] at *
    omega

end Edges

section Shift
variable (hb : b.Canonical) (hd : (⟨dx, dy⟩ : Point).InRange)
include hb hd

theorem Canonical.mem_translate_iff (hp : p.InRange) : p ∈ b.translate dx dy ↔
    (b.x + dx ≤ p.x ∨ p.x = coordMax) ∧ p.x < b.right + dx ∧
      (b.y + dy ≤ p.y ∨ p.y = coordMax) ∧ p.y < b.bottom + dy := by
  cases hempty : b.isEmpty with
  | true =>
    obtain ⟨-, hdx, -, -⟩ := hd
    obtain rfl := hb.eq_empty hempty
    refine iff_of_false (not_mem_empty p) ?_
    simp only [empty, right] at hdx ⊢
    omega
  | false =>
    have hw := hb.w_le
    have hh := hb.h_le
    rw [translate, hempty, if_neg Bool.false_ne_true,
      mem_ofEdges_of_inRange (by omega) (by omega) hp, right, bottom]
    omega

/-- No moved point is lost that is still a point of the coordinates. -/
theorem Canonical.mem_translate (hp : p.InRange) (hmem : (⟨p.x - dx, p.y - dy⟩ : Point) ∈ b) :
    p ∈ b.translate dx dy := by
  rw [mem_iff] at hmem
  apply (hb.mem_translate_iff hd hp).mpr
  dsimp only at hmem
  omega

/-- A moved box has the moved points, but for the last column and row, which it also has if it starts
past them. So it is exact if nothing of it is left or its origin is still a pair of coordinates, and
otherwise it is not. -/
theorem translate_exact :
    (∀ p : Point, p.InRange → (p ∈ b.translate dx dy ↔
      (b.x + dx ≤ p.x ∨ p.x = coordMax) ∧ p.x < b.right + dx ∧
        (b.y + dy ≤ p.y ∨ p.y = coordMax) ∧ p.y < b.bottom + dy)) ∧
    ((∀ p : Point, p.InRange →
        (p ∈ b.translate dx dy ↔ (⟨p.x - dx, p.y - dy⟩ : Point) ∈ b)) ↔
      b.translate dx dy = empty ∨ b.x + dx ≤ coordMax ∧ b.y + dy ≤ coordMax) := by
  refine ⟨fun p hp => hb.mem_translate_iff hd hp, ?_, ?_⟩
  · intro hexact
    have hmoved := canonical_translate b dx dy
    cases hempty : (b.translate dx dy).isEmpty with
    | true => exact .inl (hmoved.eq_empty hempty)
    | false =>
      -- The origin of the result is a point of it, so it must come from a point of the box.
      have horigin := mem_iff.mp
        ((hexact _ hmoved.origin_inRange).mp (corners_mem hempty).1)
      have hx := hmoved.x_le
      have hy := hmoved.y_le
      dsimp only at horigin
      omega
  · rintro (hnone | ⟨hx, hy⟩) p hp
    · refine ⟨fun hmem => ?_, hb.mem_translate hd hp⟩
      rw [hnone] at hmem
      exact absurd hmem (not_mem_empty p)
    · rw [hb.mem_translate_iff hd hp, mem_iff]
      obtain ⟨hpx, hpx', hpy, hpy'⟩ := hp
      dsimp only
      omega

omit hb hd in
theorem translate_exact_low :
    (⟨-5, 7, 9, 2⟩ : Box).Canonical ∧ (⟨coordMin, 1⟩ : Point).InRange ∧
    ∀ p : Point, p.InRange → (p ∈ (⟨-5, 7, 9, 2⟩ : Box).translate coordMin 1 ↔
      (⟨p.x - coordMin, p.y - 1⟩ : Point) ∈ (⟨-5, 7, 9, 2⟩ : Box)) := by
  have hb : (⟨-5, 7, 9, 2⟩ : Box).Canonical := by decide
  have hd : (⟨coordMin, 1⟩ : Point).InRange := by decide
  exact ⟨hb, hd, (translate_exact hb hd).2.mpr (.inr (by decide))⟩

omit hb hd in
/-- A box that is moved past the last coordinates comes back on them, and with longer sides. -/
theorem translate_past_end : (⟨2, 2, 3, 3⟩ : Box).Canonical ∧
    (⟨2, 2, 3, 3⟩ : Box).translate coordMax coordMax = ⟨coordMax, coordMax, 5, 5⟩ ∧
    (⟨coordMax, coordMax⟩ : Point) ∈ (⟨2, 2, 3, 3⟩ : Box).translate coordMax coordMax ∧
    (⟨coordMax - coordMax, coordMax - coordMax⟩ : Point) ∉ (⟨2, 2, 3, 3⟩ : Box) := by
  decide

end Shift

end Box

end Scanline

import Mathlib.Order.BoundedOrder.Basic
import Mathlib.Order.Lattice
import Scanline.Proofs.Box.Laws
/-! Boxes in the order of what they cover. Among the boxes that operations answer no two cover each
other, the empty one is covered by all, and the common part of two is the greatest that both of
them cover. So the laws of the common part are those of a meet, however far boxes reach. -/

namespace Scanline

/-- A box that operations can answer. -/
@[ext]
structure Region where
  box : Box
  canonical : box.Canonical

namespace Region
variable {a b : Region}

instance : LE Region := ⟨fun a b => b.box.covers a.box = true⟩

theorem le_iff : a ≤ b ↔ ∀ p ∈ a.box, p ∈ b.box := Box.covers_iff

instance : PartialOrder Region where
  le_refl a := le_iff.mpr fun p hp => hp
  le_trans a b c hab hbc := by
    apply le_iff.mpr
    intro p hp
    exact le_iff.mp hbc p (le_iff.mp hab p hp)
  le_antisymm a b hab hba := by
    apply Region.ext
    apply a.canonical.ext b.canonical
    intro p
    exact ⟨le_iff.mp hab p, le_iff.mp hba p⟩

instance : OrderBot Region where
  bot := ⟨Box.empty, Box.canonical_empty⟩
  bot_le a := by
    apply le_iff.mpr
    intro p hp
    exact absurd hp (Box.not_mem_empty p)

instance : SemilatticeInf Region where
  inf a b := ⟨a.box.intersect b.box, Box.canonical_intersect a.box b.box⟩
  inf_le_left a b := (Box.covers_intersect a.canonical.toInRange b.canonical.toInRange).1
  inf_le_right a b := (Box.covers_intersect a.canonical.toInRange b.canonical.toInRange).2
  le_inf a b c hab hac := by
    apply le_iff.mpr
    intro p hp
    exact (Box.mem_intersect_iff b.canonical.toInRange c.canonical.toInRange).mpr
      ⟨le_iff.mp hab p hp, le_iff.mp hac p hp⟩

end Region

namespace Box
variable {a b c : Box} (ha : a.Canonical) (hb : b.Canonical)
include ha hb

theorem Canonical.covers_antisymm (h : a.covers b = true) (h' : b.covers a = true) : a = b :=
  congrArg Region.box (le_antisymm (a := (⟨a, ha⟩ : Region)) (b := ⟨b, hb⟩) h' h)

/-- A box covers another one if that is their common part. -/
theorem Canonical.covers_iff_intersect_eq : a.covers b = true ↔ a.intersect b = b := by
  have hmeet : (⟨a, ha⟩ : Region) ⊓ ⟨b, hb⟩ = ⟨b, hb⟩ ↔ (⟨b, hb⟩ : Region) ≤ ⟨a, ha⟩ := inf_eq_right
  exact hmeet.symm.trans Region.ext_iff

variable (hc : c.Canonical)
include hc

theorem Canonical.covers_trans (h : a.covers b = true) (h' : b.covers c = true) :
    a.covers c = true :=
  le_trans (a := (⟨c, hc⟩ : Region)) (b := ⟨b, hb⟩) (c := ⟨a, ha⟩) h' h

theorem Canonical.intersect_assoc : (a.intersect b).intersect c = a.intersect (b.intersect c) :=
  congrArg Region.box (inf_assoc (⟨a, ha⟩ : Region) ⟨b, hb⟩ ⟨c, hc⟩)

/-- Both boxes cover what their common part covers, and nothing else is covered by both. -/
theorem Canonical.covers_both_iff :
    (a.intersect b).covers c = true ↔ a.covers c = true ∧ b.covers c = true :=
  le_inf_iff (a := (⟨a, ha⟩ : Region)) (b := ⟨b, hb⟩) (c := ⟨c, hc⟩)

/-- The common part of two boxes has the points of both. It is their meet in the order of what boxes
cover, and it is a box of the same kind as every other answer. -/
theorem intersect_exact :
    (∀ p, p ∈ a.intersect b ↔ p ∈ a ∧ p ∈ b) ∧
    (a.intersect b = b.intersect a ∧ (a.intersect b).intersect c = a.intersect (b.intersect c) ∧
      a.intersect a = a ∧ a.intersect empty = empty ∧ empty.intersect a = empty) ∧
    (a.covers a = true ∧ (a.covers b = true → b.covers a = true → a = b) ∧
      (a.covers b = true → b.covers c = true → a.covers c = true) ∧ a.covers empty = true) ∧
    (a.covers b = true ↔ a.intersect b = b) ∧
    ((a.intersect b).covers c = true ↔ a.covers c = true ∧ b.covers c = true) ∧
    (a.intersect b).Canonical ∧ (a.union b).Canonical ∧
    (∀ dx dy, (a.translate dx dy).Canonical) ∧ (∀ p q, (ofCorners p q).Canonical) ∧
    ∀ x y w h, (⟨x, y, w, h⟩ : Box).InRange → (ofSize x y w h).Canonical := by
  refine ⟨fun p => mem_intersect_iff ha.toInRange hb.toInRange, ?_, ?_, ?_, ?_, ?_⟩
  · exact ⟨intersect_comm a b, ha.intersect_assoc hb hc, ha.intersect_self, intersect_empty a,
      (intersect_comm empty a).trans (intersect_empty a)⟩
  · refine ⟨le_refl (⟨a, ha⟩ : Region), ha.covers_antisymm hb, ha.covers_trans hb hc, ?_⟩
    exact bot_le (a := (⟨a, ha⟩ : Region))
  · exact ha.covers_iff_intersect_eq hb
  · exact ha.covers_both_iff hb hc
  · exact ⟨canonical_intersect a b, ha.union hb, canonical_translate a, canonical_ofCorners,
      fun x y w h => canonical_ofSize⟩

omit ha hb hc in
/-- Two boxes of which one ends at the coordinates that the other one starts before and goes past. -/
theorem intersect_exact_reaching :
    (⟨coordMin, -1, sizeMax, 3⟩ : Box).Canonical ∧
    (⟨coordMax - 2, 0, sizeMax, sizeMax⟩ : Box).Canonical ∧
    (⟨coordMax - 1, 1, 1, 1⟩ : Box).Canonical ∧
    ⟨coordMax - 1, 1⟩ ∈ (⟨coordMin, -1, sizeMax, 3⟩ : Box).intersect
      ⟨coordMax - 2, 0, sizeMax, sizeMax⟩ ∧
    ((⟨coordMin, -1, sizeMax, 3⟩ : Box).intersect ⟨coordMax - 2, 0, sizeMax, sizeMax⟩).covers
      ⟨coordMax - 1, 1, 1, 1⟩ = true := by
  have ha : (⟨coordMin, -1, sizeMax, 3⟩ : Box).Canonical := by decide
  have hb : (⟨coordMax - 2, 0, sizeMax, sizeMax⟩ : Box).Canonical := by decide
  have hc : (⟨coordMax - 1, 1, 1, 1⟩ : Box).Canonical := by decide
  obtain ⟨hmem, -, -, -, hmeet, -⟩ := intersect_exact ha hb hc
  exact ⟨ha, hb, hc, (hmem _).mpr ⟨by decide, by decide⟩, hmeet.mpr ⟨by decide, by decide⟩⟩

end Box

end Scanline

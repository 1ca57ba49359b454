import Scanline.Proofs.Format.Acceptance
/-! Storing colors in a known format. Every pixel has a color and every color has a pixel, no step
of either leaves the words, and a pixel has no bits outside the channels. Where no two channels
store the same part, a stored color is stored as the same pixel again: packing is a projection. -/

namespace Scanline

namespace Format
variable {f : Format} {color color' : Rgba} {c : Channel}

namespace Sound
variable (hf : f.Sound)
include hf

theorem pack_le_mask (color : Rgba) : f.pack color ≤ f.depth.mask := by
  rw [← hf.pack_and_mask color, UInt32.le_iff_toNat_le, UInt32.toNat_and]
  exact Nat.and_le_right

variable (hkinds : f.KindsDistinct)
include hkinds

theorem toNat_part_of_unpack_pack (hcolor : f.unpack (f.pack color) = .ok color')
    (hc : c ∈ f.channels) (hkind : c.kind ≠ .pad) : (color'.part c.kind).toNat =
      Level.toByte c.size (Level.ofByte c.size (color.part c.kind).toNat) := by
  rw [hf.part_of_unpack hcolor hkind (hkinds.lastOf_eq hc hkind), (hf.fits hc).toNat_read,
    hf.level_pack color hc hkind]

theorem pack_unpack_pack (hcolor : f.unpack (f.pack color) = .ok color') :
    f.pack color' = f.pack color := by
  apply hf.pack_eq_of_levels (hf.confined_pack color)
  intro c hc hkind
  rw [hf.level_pack color hc hkind, hf.toNat_part_of_unpack_pack hkinds hcolor hc hkind,
    Level.ofByte_toByte_ofByte (hf.fits hc).pos]

end Sound

/-- Known formats are safe to use, and where kinds are distinct a stored color never drifts. -/
theorem Known.packs_safely (hf : f.Known) :
    (∀ p, ∃ color, f.unpack p = .ok color ∧ f.checkedUnpack p = .ok color) ∧
    (∀ color, f.checkedPack color = .ok (f.pack color) ∧ f.Confined (f.pack color) ∧
      f.pack color ≤ f.depth.mask) ∧
    (f.KindsDistinct → ∀ color, ∃ color', f.unpack (f.pack color) = .ok color' ∧
      f.pack color' = f.pack color) := by
  have hsound := hf.sound
  refine ⟨fun p => ?_, fun color => ?_, fun hkinds color => ?_⟩
  · obtain ⟨color, hcolor⟩ := hsound.exists_unpack p
    exact ⟨color, hcolor, (hsound.checkedUnpack_eq p).trans hcolor⟩
  · exact ⟨hsound.checkedPack_eq color, hsound.confined_pack color, hsound.pack_le_mask color⟩
  · obtain ⟨color', hcolor⟩ := hsound.exists_unpack (f.pack color)
    exact ⟨color', hcolor, hsound.pack_unpack_pack hkinds hcolor⟩

theorem packs_safely_rgb10a2 : rgb10a2.Known ∧ rgb10a2.KindsDistinct ∧
    rgb10a2.checkedPack ⟨255, 128, 1, 127⟩ = .ok 0xff200011 ∧
    ∃ color, rgb10a2.unpack 0xff200011 = .ok color ∧ rgb10a2.pack color = 0xff200011 := by
  have hkinds : rgb10a2.KindsDistinct := by decide
  obtain ⟨-, hpack, hstable⟩ := known_rgb10a2.packs_safely
  have hpixel : rgb10a2.pack ⟨255, 128, 1, 127⟩ = 0xff200011 := by decide
  have hchecked := (hpack ⟨255, 128, 1, 127⟩).1
  have hagain := hstable hkinds ⟨255, 128, 1, 127⟩
  rw [hpixel] at hchecked hagain
  exact ⟨known_rgb10a2, hkinds, hchecked, hagain⟩

end Format

end Scanline

import Scanline.Proofs.Format.Projection
/-! Conversions that lose nothing. A format whose channels have at most eight bits is carried by one
that keeps each of its parts in eight bits or more: a pixel that goes there and back is the same
pixel. Gray may be carried as gray, or as the three color parts. -/

namespace Scanline

namespace Format
variable {f g : Format} {p : Pixel} {color color' : Rgba} {c : Channel} {k : ChannelKind}

/-- The format stores the part in eight bits or more. -/
def StoresByte (f : Format) (k : ChannelKind) : Prop := ∃ c ∈ f.channels, c.kind = k ∧ 8 ≤ c.size

instance (f : Format) (k : ChannelKind) : Decidable (f.StoresByte k) :=
  inferInstanceAs (Decidable (∃ _ ∈ _, _))

/-- The first format has channels of at most eight bits, and the second one stores in eight bits or
more what they hold. -/
structure WidenedBy (f g : Format) : Prop where
  size_le : ∀ c ∈ f.channels, c.kind ≠ .pad → c.size ≤ 8
  stores : ∀ c ∈ f.channels, c.kind ≠ .pad → g.StoresByte c.kind ∨
    c.kind = .value ∧ g.StoresByte .red ∧ g.StoresByte .green ∧ g.StoresByte .blue

theorem sameLayout_iff : f.sameLayout g = true ↔ f.channels = g.channels ∧ f.depth = g.depth := by
  rw [sameLayout, Bool.and_eq_true, beq_iff_eq, beq_iff_eq]

theorem Sound.and_mask_of_confined (hf : f.Sound) (hp : f.Confined p) : p &&& f.depth.mask = p := by
  apply Depth.and_mask_of_testBit
  intro j hj
  by_contra hbit
  rw [Bool.not_eq_false] at hbit
  obtain ⟨c, hc, -, hholds⟩ := hp j hbit
  exact Nat.not_lt.mpr hj ((hf.fits hc).lt_of_holds hholds)

section Stored
variable (hg : g.Sound) (hkinds : g.KindsDistinct) (hcolor : g.unpack (g.pack color) = .ok color')
include hg hkinds hcolor

theorem StoresByte.part_eq (h : g.StoresByte k) (hk : k ≠ .pad) : color'.part k = color.part k := by
  obtain ⟨c, hc, rfl, hsize⟩ := h
  apply UInt8.toNat_inj.mp
  rw [hg.toNat_part_of_unpack_pack hkinds hcolor hc hk, Level.toByte_ofByte hsize]

theorem gray_eq_of_storesByte (hr : g.StoresByte .red) (hgreen : g.StoresByte .green)
    (hb : g.StoresByte .blue) : gray color' = gray color := by
  have hred : color'.r = color.r := hr.part_eq hg hkinds hcolor (by decide)
  have hgreen' : color'.g = color.g := hgreen.part_eq hg hkinds hcolor (by decide)
  have hblue : color'.b = color.b := hb.part_eq hg hkinds hcolor (by decide)
  rw [gray, gray, hred, hgreen', hblue]

theorem WidenedBy.part_eq (h : f.WidenedBy g) (hc : c ∈ f.channels) (hkind : c.kind ≠ .pad) :
    color'.part c.kind = color.part c.kind := by
  rcases h.stores c hc hkind with hbyte | ⟨hgray, hr, hgreen, hb⟩
  · exact hbyte.part_eq hg hkinds hcolor hkind
  · rw [hgray]
    exact gray_eq_of_storesByte hg hkinds hcolor hr hgreen hb

end Stored

theorem Sound.pack_eq_of_parts (hf : f.Sound) (hkinds : f.KindsDistinct) (hp : f.Confined p)
    (hcolor : f.unpack p = .ok color)
    (hparts : ∀ c ∈ f.channels, c.kind ≠ .pad →
      c.size ≤ 8 ∧ color'.part c.kind = color.part c.kind) : f.pack color' = p := by
  apply hf.pack_eq_of_levels hp
  intro c hc hkind
  obtain ⟨hsize, hpart⟩ := hparts c hc hkind
  rw [hpart, hf.part_of_unpack hcolor hkind (hkinds.lastOf_eq hc hkind), (hf.fits hc).toNat_read,
    Level.ofByte_toByte (hf.fits hc).pos hsize]

/-- There and back through a wider format. -/
theorem Known.convert_convert (hf : f.Known) (hg : g.Known) (hfkinds : f.KindsDistinct)
    (hgkinds : g.KindsDistinct) (hwide : f.WidenedBy g) (hp : f.Confined p) :
    ∃ q, f.convert p g = .ok q ∧ g.convert q f = .ok p := by
  have hfs := hf.sound
  have hgs := hg.sound
  by_cases hsame : f.sameLayout g = true
  · -- The pixel is passed on as it is: the mask of either depth leaves a confined pixel alone.
    have hback : g.sameLayout f = true := by
      rw [sameLayout_iff] at hsame ⊢
      exact ⟨hsame.1.symm, hsame.2.symm⟩
    have hmask := hfs.and_mask_of_confined hp
    refine ⟨p, ?_, ?_⟩
    · rw [convert, if_pos hsame, ← (sameLayout_iff.mp hsame).2, hmask]
    · rw [convert, if_pos hback, hmask]
  · have hback : ¬g.sameLayout f = true := by
      rw [sameLayout_iff] at hsame ⊢
      exact fun h => hsame ⟨h.1.symm, h.2.symm⟩
    obtain ⟨color, hcolor⟩ := hfs.exists_unpack p
    obtain ⟨color', hcolor'⟩ := hgs.exists_unpack (g.pack color)
    refine ⟨g.pack color, ?_, ?_⟩
    · rw [convert, if_neg hsame, hcolor]
      rfl
    · have hpack := hfs.pack_eq_of_parts hfkinds hp hcolor fun c hc hkind =>
        ⟨hwide.size_le c hc hkind, hwide.part_eq hgs hgkinds hcolor' hc hkind⟩
      rw [convert, if_neg hback, hcolor', ← hpack]
      rfl

/-- Gray and alpha of seven bits each. -/
def va77 : Format := ⟨9, "VA77", .sixteen, [⟨.value, 7, 7⟩, ⟨.alpha, 0, 7⟩]⟩

theorem known_va77 : va77.Known := known_of_new_name (by decide) (by decide)

theorem convert_convert_va77 : va77.KindsDistinct ∧ rgba8888.KindsDistinct ∧
    va77.WidenedBy rgba8888 ∧ va77.Confined 0x2ad5 ∧
    ∃ q, va77.convert 0x2ad5 rgba8888 = .ok q ∧ rgba8888.convert q va77 = .ok 0x2ad5 := by
  have hgrayKinds : va77.KindsDistinct := by decide
  have hcolorKinds : rgba8888.KindsDistinct := by decide
  have hwide : va77.WidenedBy rgba8888 := ⟨by decide, by decide⟩
  have hpixel : va77.Confined 0x2ad5 := by decide
  exact ⟨hgrayKinds, hcolorKinds, hwide, hpixel, known_va77.convert_convert
    (known_of_mem_standard (by decide)) hgrayKinds hcolorKinds hwide hpixel⟩

end Format

end Scanline

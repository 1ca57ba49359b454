import Scanline.Proofs.Format.Scaling
import Scanline.Proofs.Results
/-! Colors and pixels of a sound format. A color has one part for each kind of channel. The pixel of
a color is the one whose channels hold the levels of their parts and that is zero elsewhere; the
color of a pixel has each part from the last channel of its kind. -/

namespace Scanline

namespace ChannelKind

/-- Gray and a color part, which are written to the same places of a color. -/
def Mixes (k k' : ChannelKind) : Prop :=
  k = .value ∧ k'.isColor = true ∨ k' = .value ∧ k.isColor = true

end ChannelKind

namespace Rgba
variable {color : Rgba} {k k' : ChannelKind} {v v' : UInt8}

/-- The part of a color that channels of a kind store. -/
def part (color : Rgba) : ChannelKind → UInt8
  | .red => color.r
  | .green => color.g
  | .blue => color.b
  | .alpha => color.a
  | .value => Format.gray color
  | .pad => 0

/-- The color once a channel of a kind has been read. -/
def withPart (color : Rgba) (k : ChannelKind) (v : UInt8) : Rgba :=
  match k with
  | .red => { color with r := v }
  | .green => { color with g := v }
  | .blue => { color with b := v }
  | .alpha => { color with a := v }
  | .value => { color with r := v, g := v, b := v }
  | .pad => color

theorem gray_of_eq (hg : color.g = color.r) (hb : color.b = color.r) :
    Format.gray color = color.r := by
  have hlt := color.r.toNat_lt
  apply UInt8.toNat_inj.mp
  rw [Format.gray, hg, hb, UInt32.toNat_toUInt8, UInt32.toNat_div, UInt32.toNat_add,
    UInt32.toNat_add, UInt8.toNat_toUInt32]
  change ((color.r.toNat + color.r.toNat) % 2 ^ 32 + color.r.toNat) % 2 ^ 32 / 3 % 2 ^ 8 = _
  rw [Nat.mod_eq_of_lt (show color.r.toNat + color.r.toNat < 2 ^ 32 by omega),
    Nat.mod_eq_of_lt (show color.r.toNat + color.r.toNat + color.r.toNat < 2 ^ 32 by omega)]
  omega

theorem part_withPart (hk : k ≠ .pad) : (color.withPart k v).part k = v := by
  cases k with
  | red | green | blue | alpha => rfl
  | value => exact gray_of_eq rfl rfl
  | pad => exact absurd rfl hk

theorem withPart_withPart : (color.withPart k v').withPart k v = color.withPart k v := by
  cases k <;> rfl

theorem withPart_comm (hne : k ≠ k') (hmix : ¬k.Mixes k') :
    (color.withPart k v).withPart k' v' = (color.withPart k' v').withPart k v := by
  cases k <;> cases k' <;> simp_all [withPart, ChannelKind.Mixes, ChannelKind.isColor]

end Rgba

namespace Channel
variable {c : Channel} {d : Depth}

theorem Fits.unpackChannel_eq (h : c.Fits d) (p : Pixel) (color : Rgba) :
    Format.unpackChannel p color c = .ok (color.withPart c.kind (c.read p)) := by
  rw [Format.unpackChannel, h.get8_eq]
  cases c.kind <;> rfl

theorem packChannel_eq (c : Channel) (color : Rgba) :
    Format.packChannel color c = if c.kind = .pad then 0 else c.put8 (color.part c.kind) := by
  unfold Format.packChannel
  cases c.kind <;> rfl

theorem Fits.testBit_packChannel (h : c.Fits d) (color : Rgba) (j : Nat) :
    (Format.packChannel color c).toNat.testBit j = true ↔ c.kind ≠ .pad ∧ c.Holds j ∧
      (Level.ofByte c.size (color.part c.kind).toNat).testBit (j - c.offset) = true := by
  rw [packChannel_eq]
  by_cases hpad : c.kind = .pad
  · simp [hpad]
  · rw [if_neg hpad, h.toNat_put8, Nat.testBit_shiftLeft, Bool.and_eq_true, decide_eq_true_eq]
    constructor
    · rintro ⟨hj, hbit⟩
      have hsize := lt_of_testBit (Level.ofByte_lt h.pos (color.part c.kind).toNat_lt) hbit
      exact ⟨hpad, ⟨hj, by omega⟩, hbit⟩
    · rintro ⟨-, ⟨hj, -⟩, hbit⟩
      exact ⟨hj, hbit⟩

end Channel

namespace Format
variable {f : Format} {p : Pixel} {color : Rgba} {c : Channel}

/-- The channel whose value the color of a pixel shows: the last of its kind. -/
def lastOf (f : Format) (k : ChannelKind) : Option Channel :=
  f.channels.reverse.find? fun c => c.kind == k

/-- No two channels store the same part of a color. -/
def KindsDistinct (f : Format) : Prop :=
  f.channels.Pairwise fun c c' => c.kind = c'.kind → c.kind = .pad

instance (f : Format) : Decidable f.KindsDistinct := inferInstanceAs (Decidable (List.Pairwise _ _))

/-- Every bit of the pixel belongs to a channel that stores something. -/
def Confined (f : Format) (p : Pixel) : Prop :=
  ∀ j, p.toNat.testBit j = true → ∃ c ∈ f.channels, c.kind ≠ .pad ∧ c.Holds j

theorem confined_iff : f.Confined p ↔
    ∀ j < 32, p.toNat.testBit j = true → ∃ c ∈ f.channels, c.kind ≠ .pad ∧ c.Holds j := by
  constructor
  · exact fun h j _ => h j
  · exact fun h j hbit => h j (lt_of_testBit p.toNat_lt hbit) hbit

instance (f : Format) (p : Pixel) : Decidable (f.Confined p) := decidable_of_iff _ confined_iff.symm

theorem of_lastOf_eq_some {k : ChannelKind} (h : f.lastOf k = some c) :
    c ∈ f.channels ∧ c.kind = k := by
  unfold lastOf at h
  have hkind := List.find?_some h
  exact ⟨List.mem_reverse.mp (List.mem_of_find?_eq_some h), beq_iff_eq.mp hkind⟩

theorem withPart_foldr {channels : List Channel} (hmix : ∀ c' ∈ channels, ¬c'.kind.Mixes c.kind)
    (hfirst : channels.find? (fun c' => c'.kind == c.kind) = some c) :
    (channels.foldr (fun c color => color.withPart c.kind (c.read p)) color).withPart c.kind
      (c.read p) = channels.foldr (fun c color => color.withPart c.kind (c.read p)) color := by
  -- What is read before the last channel of a kind is of other kinds, so the order makes no
  -- difference.
  induction channels with
  | nil => cases hfirst
  | cons c' rest ih =>
    rw [List.forall_mem_cons] at hmix
    rw [List.find?_cons] at hfirst
    rw [List.foldr_cons]
    by_cases heq : c'.kind = c.kind
    · rw [beq_iff_eq.mpr heq] at hfirst
      obtain rfl := Option.some.inj hfirst
      exact Rgba.withPart_withPart
    · rw [beq_eq_false_iff_ne.mpr heq] at hfirst
      rw [Rgba.withPart_comm heq hmix.1, ih hmix.2 hfirst]

theorem testBit_foldl_packChannel_iff (color : Rgba) (j : Nat) {channels : List Channel}
    {p : Pixel} : (channels.foldl (fun p c => p ||| packChannel color c) p).toNat.testBit j = true ↔
      p.toNat.testBit j = true ∨ ∃ c ∈ channels, (packChannel color c).toNat.testBit j = true := by
  induction channels generalizing p with
  | nil => simp
  | cons c rest ih =>
    rw [List.foldl_cons, ih, UInt32.toNat_or, Nat.testBit_or, Bool.or_eq_true, or_assoc]
    simp only [List.mem_cons, exists_eq_or_imp]

theorem KindsDistinct.eq_of_kind (h : f.KindsDistinct) {c' : Channel} (hc : c ∈ f.channels)
    (hc' : c' ∈ f.channels) (hkind : c.kind ≠ .pad) (heq : c'.kind = c.kind) : c' = c := by
  have hsymm : Std.Symm fun c c' : Channel => c.kind = c'.kind → c.kind = .pad :=
    ⟨fun _ _ himp heq => heq.trans (himp heq.symm)⟩
  by_contra hne
  exact hkind (heq ▸ List.Pairwise.forall h hc' hc hne heq)

theorem KindsDistinct.lastOf_eq (h : f.KindsDistinct) (hc : c ∈ f.channels)
    (hkind : c.kind ≠ .pad) : f.lastOf c.kind = some c := by
  cases hlast : f.lastOf c.kind with
  | none =>
    have hnone := List.find?_eq_none.mp hlast c (List.mem_reverse.mpr hc)
    exact absurd (beq_self_eq_true c.kind) hnone
  | some c' =>
    obtain ⟨hc', heq⟩ := of_lastOf_eq_some hlast
    rw [h.eq_of_kind hc hc' hkind heq]

namespace Sound
variable (hf : f.Sound)
include hf

theorem not_mixes {c' : Channel} (hc : c ∈ f.channels) (hc' : c' ∈ f.channels) :
    ¬c.kind.Mixes c'.kind := by
  have halone := hf.admissible.gray_alone
  rintro (⟨hgray, hcolor⟩ | ⟨hgray, hcolor⟩)
  · have := halone c hc hgray c' hc'
    simp_all [ChannelKind.isColor]
  · have := halone c' hc' hgray c hc
    simp_all [ChannelKind.isColor]

theorem unpack_eq (p : Pixel) : f.unpack p =
    .ok (f.channels.foldl (fun color c => color.withPart c.kind (c.read p)) ⟨0, 0, 0, 255⟩) :=
  foldlM_eq_ok (fun _ hc color => (hf.fits hc).unpackChannel_eq p color) _

theorem withPart_of_unpack (hcolor : f.unpack p = .ok color) (hlast : f.lastOf c.kind = some c) :
    color.withPart c.kind (c.read p) = color := by
  have hc := (of_lastOf_eq_some hlast).1
  rw [hf.unpack_eq] at hcolor
  obtain rfl := Except.ok.inj hcolor
  rw [List.foldl_eq_foldr_reverse]
  exact withPart_foldr (fun c' hc' => hf.not_mixes (List.mem_reverse.mp hc') hc) hlast

theorem part_of_unpack (hcolor : f.unpack p = .ok color) (hkind : c.kind ≠ .pad)
    (hlast : f.lastOf c.kind = some c) : color.part c.kind = c.read p := by
  rw [← hf.withPart_of_unpack hcolor hlast]
  exact Rgba.part_withPart hkind

theorem testBit_pack (color : Rgba) (j : Nat) : (f.pack color).toNat.testBit j = true ↔
    ∃ c ∈ f.channels, c.kind ≠ .pad ∧ c.Holds j ∧
      (Level.ofByte c.size (color.part c.kind).toNat).testBit (j - c.offset) = true := by
  rw [pack, testBit_foldl_packChannel_iff, UInt32.toNat_zero, Nat.zero_testBit]
  constructor
  · rintro (hzero | ⟨c, hc, hbit⟩)
    · cases hzero
    · exact ⟨c, hc, ((hf.fits hc).testBit_packChannel color j).mp hbit⟩
  · rintro ⟨c, hc, hbit⟩
    exact .inr ⟨c, hc, ((hf.fits hc).testBit_packChannel color j).mpr hbit⟩

theorem confined_pack (color : Rgba) : f.Confined (f.pack color) := by
  intro j hj
  obtain ⟨c, hc, hkind, hholds, -⟩ := (hf.testBit_pack color j).mp hj
  exact ⟨c, hc, hkind, hholds⟩

theorem level_pack (color : Rgba) (hc : c ∈ f.channels) (hkind : c.kind ≠ .pad) :
    (c.level (f.pack color)).toNat = Level.ofByte c.size (color.part c.kind).toNat := by
  have hfit := hf.fits hc
  apply Nat.eq_of_testBit_eq
  intro j
  rw [hfit.testBit_level, Bool.eq_iff_iff, Bool.and_eq_true, decide_eq_true_eq, hf.testBit_pack]
  constructor
  · rintro ⟨hj, c', hc', -, hholds, hbit⟩
    obtain rfl := hf.eq_of_holds hc hc' ⟨Nat.le_add_right _ _, by omega⟩ hholds
    rwa [Nat.add_sub_cancel_left] at hbit
  · intro hbit
    have hj := lt_of_testBit (Level.ofByte_lt hfit.pos (color.part c.kind).toNat_lt) hbit
    refine ⟨hj, c, hc, hkind, ⟨Nat.le_add_right _ _, by omega⟩, ?_⟩
    rwa [Nat.add_sub_cancel_left]

/-- No other pixel that is zero elsewhere holds these levels. -/
theorem pack_eq_of_levels (hp : f.Confined p) (hlevels : ∀ c ∈ f.channels, c.kind ≠ .pad →
    (c.level p).toNat = Level.ofByte c.size (color.part c.kind).toNat) : f.pack color = p := by
  have hbits : ∀ c ∈ f.channels, c.kind ≠ .pad → ∀ j, c.Holds j →
      (Level.ofByte c.size (color.part c.kind).toNat).testBit (j - c.offset) =
        p.toNat.testBit j := by
    intro c hc hkind j hj
    rw [← hlevels c hc hkind, (hf.fits hc).testBit_level_of_holds p hj]
  apply UInt32.toNat_inj.mp
  apply Nat.eq_of_testBit_eq
  intro j
  rw [Bool.eq_iff_iff, hf.testBit_pack]
  constructor
  · rintro ⟨c, hc, hkind, hholds, hbit⟩
    rwa [hbits c hc hkind j hholds] at hbit
  · intro hbit
    obtain ⟨c, hc, hkind, hholds⟩ := hp j hbit
    exact ⟨c, hc, hkind, hholds, (hbits c hc hkind j hholds).trans hbit⟩

end Sound

end Format

end Scanline

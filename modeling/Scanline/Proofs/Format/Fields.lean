import Mathlib.Data.List.Pairwise
import Scanline.Proofs.Format.Registry
/-! Channels as bit fields. The check of a layout goes through the channels once, with the bits used
so far in one word; it passes just when every channel has bits of its own inside the depth. -/

namespace Scanline

theorem toNat_shiftRight_of_lt (v : Pixel) {n : Nat} (hn : n < 32) :
    (v >>> n.toUInt32).toNat = v.toNat >>> n := by
  rw [UInt32.toNat_shiftRight, Nat.toUInt32, UInt32.toNat_ofNat',
    Nat.mod_mod_of_dvd _ (Nat.dvd_of_mod_eq_zero rfl), Nat.mod_eq_of_lt hn]

theorem lt_of_testBit {v n j : Nat} (hv : v < 2 ^ n) (hbit : v.testBit j = true) : j < n :=
  (Nat.pow_lt_pow_iff_right (by decide)).mp
    (Nat.lt_of_le_of_lt (Nat.ge_two_pow_of_testBit hbit) hv)

namespace Channel
variable {c c' : Channel} {d : Depth}

/-- Bit `j` of a pixel belongs to the channel. -/
def Holds (c : Channel) (j : Nat) : Prop := c.offset ≤ j ∧ j < c.offset + c.size

instance (c : Channel) (j : Nat) : Decidable (c.Holds j) := inferInstanceAs (Decidable (_ ∧ _))

/-- No bit belongs to both channels. -/
def Apart (c c' : Channel) : Prop := ∀ j, c.Holds j → ¬c'.Holds j

instance : Std.Symm Apart := ⟨fun _ _ h j hj' hj => h j hj hj'⟩

theorem Fits.lt_of_holds (h : c.Fits d) {j : Nat} (hj : c.Holds j) : j < d.bits :=
  Nat.lt_of_lt_of_le hj.2 h.le

theorem Fits.offset_lt (h : c.Fits d) : c.offset < 32 := by
  have hd := d.bits_le
  have hle := h.le
  have hpos := h.pos
  omega

theorem Fits.size_le (h : c.Fits d) : c.size ≤ 32 :=
  Nat.le_trans (Nat.le_add_left _ _) (Nat.le_trans h.le d.bits_le)

theorem Fits.testBit_lowBits_shift (h : c.Fits d) (j : Nat) :
    (lowBits c.size <<< c.offset.toUInt32).toNat.testBit j = true ↔ c.Holds j := by
  have hd := d.bits_le
  have hle := h.le
  rw [toNat_shiftLeft_of_lt _ h.offset_lt, Nat.testBit_mod_two_pow, Nat.testBit_shiftLeft,
    testBit_lowBits]
  simp only [Bool.and_eq_true, decide_eq_true_eq, Holds]
  omega

/-- No bit of the channel is set in the pixel. -/
def Clear (c : Channel) (p : Pixel) : Prop := ∀ j, c.Holds j → p.toNat.testBit j = false

@[simp] theorem clear_zero (c : Channel) : c.Clear 0 := fun j _ => Nat.zero_testBit j

theorem Fits.and_lowBits_shift_eq_zero_iff (h : c.Fits d) (p : Pixel) :
    p &&& lowBits c.size <<< c.offset.toUInt32 = 0 ↔ c.Clear p := by
  rw [← UInt32.toNat_inj, UInt32.toNat_and]
  constructor
  · intro hzero j hj
    have hbit := Nat.zero_testBit j
    rwa [← UInt32.toNat_zero, ← hzero, Nat.testBit_and, (h.testBit_lowBits_shift j).mpr hj,
      Bool.and_true] at hbit
  · intro hclear
    apply Nat.eq_of_testBit_eq
    intro j
    rw [Nat.testBit_and, UInt32.toNat_zero, Nat.zero_testBit]
    by_cases hj : c.Holds j
    · rw [hclear j hj, Bool.false_and]
    · rw [Bool.eq_false_iff.mpr (mt (h.testBit_lowBits_shift j).mp hj), Bool.and_false]

/-- After a channel has taken its bits, the clear channels are those that are apart from it. -/
theorem Fits.clear_or_iff (h : c.Fits d) (p : Pixel) :
    c'.Clear (p ||| lowBits c.size <<< c.offset.toUInt32) ↔ c'.Clear p ∧ c.Apart c' := by
  have hbit : ∀ j, (p ||| lowBits c.size <<< c.offset.toUInt32).toNat.testBit j = false ↔
      p.toNat.testBit j = false ∧ ¬c.Holds j := by
    intro j
    rw [UInt32.toNat_or, Nat.testBit_or, Bool.or_eq_false_iff, ← h.testBit_lowBits_shift,
      Bool.not_eq_true]
  constructor
  · intro hclear
    exact ⟨fun j hj => ((hbit j).mp (hclear j hj)).1,
      fun j hj hj' => ((hbit j).mp (hclear j hj')).2 hj⟩
  · rintro ⟨hclear, hapart⟩ j hj'
    exact (hbit j).mpr ⟨hclear j hj', fun hj => hapart j hj hj'⟩

end Channel

namespace Registry
variable {depth : Depth} {used : Pixel}

theorem usedBits_cons_isSome_iff {c : Channel} {rest : List Channel} :
    (usedBits depth used (c :: rest)).isSome = true ↔ c.Fits depth ∧ c.Clear used ∧
      (usedBits depth (used ||| Channel.lowBits c.size <<< c.offset.toUInt32) rest).isSome =
        true := by
  rw [usedBits]
  by_cases hfit : c.Fits depth
  · have hsize := hfit.pos
    have hend := hfit.le
    have hclear := hfit.and_lowBits_shift_eq_zero_iff used
    rw [if_neg (by omega)]
    by_cases hfree : c.Clear used
    · rw [if_neg (not_not_intro (hclear.mpr hfree))]
      simp only [hfit, hfree, true_and]
    · rw [if_pos (mt hclear.mp hfree)]
      simp only [hfree, false_and, and_false, Option.isSome_none, Bool.false_eq_true]
  · have hno : c.size = 0 ∨ c.offset + c.size > depth.bits := by
      by_contra hyes
      exact hfit ⟨by omega, by omega⟩
    rw [if_pos hno]
    simp only [hfit, false_and, Option.isSome_none, Bool.false_eq_true]

theorem usedBits_isSome_iff {channels : List Channel} :
    (usedBits depth used channels).isSome = true ↔
      (∀ c ∈ channels, c.Fits depth) ∧ (∀ c ∈ channels, c.Clear used) ∧
        channels.Pairwise Channel.Apart := by
  -- The bits in use grow, so the induction is over any of them. What the rest must be clear of is
  -- what was used before, together with the first channel.
  induction channels generalizing used with
  | nil => simp [usedBits]
  | cons c rest ih =>
    rw [usedBits_cons_isSome_iff, ih, List.forall_mem_cons, List.forall_mem_cons,
      List.pairwise_cons]
    constructor
    · rintro ⟨hfit, hclear, hfits, hclears, hapart⟩
      have hrest := fun c' hc' => (hfit.clear_or_iff used).mp (hclears c' hc')
      exact ⟨⟨hfit, hfits⟩, ⟨hclear, fun c' hc' => (hrest c' hc').1⟩,
        fun c' hc' => (hrest c' hc').2, hapart⟩
    · rintro ⟨⟨hfit, hfits⟩, ⟨hclear, hclears⟩, hfirst, hapart⟩
      exact ⟨hfit, hclear, hfits,
        fun c' hc' => (hfit.clear_or_iff used).mpr ⟨hclears c' hc', hfirst c' hc'⟩, hapart⟩

/-- What a registry asks of a layout. -/
structure Admissible (depth : Depth) (channels : List Channel) : Prop where
  length_pos : 1 ≤ channels.length
  length_le : channels.length ≤ 4
  fits : ∀ c ∈ channels, c.Fits depth
  apart : channels.Pairwise Channel.Apart
  gray_alone : ∀ c ∈ channels, c.kind = .value → ∀ c' ∈ channels,
    c'.kind ≠ .red ∧ c'.kind ≠ .green ∧ c'.kind ≠ .blue

theorem mixesGray_eq_false_iff {channels : List Channel} : mixesGray channels = false ↔
    ∀ c ∈ channels, c.kind = .value → ∀ c' ∈ channels,
      c'.kind ≠ .red ∧ c'.kind ≠ .green ∧ c'.kind ≠ .blue := by
  simp only [mixesGray, ChannelKind.isColor, Bool.and_eq_false_iff, List.any_eq_false,
    beq_iff_eq, Bool.or_eq_true, not_or, and_assoc]
  constructor
  · rintro (hgray | hcolor) c hc hkind c' hc'
    · exact absurd hkind (hgray c hc)
    · exact hcolor c' hc'
  · intro h
    by_cases hgray : ∃ c ∈ channels, c.kind = .value
    · obtain ⟨c, hc, hkind⟩ := hgray
      exact .inr (h c hc hkind)
    · exact .inl fun c hc hkind => hgray ⟨c, hc, hkind⟩

theorem soundLayout_iff {channels : List Channel} :
    soundLayout depth channels = true ↔ Admissible depth channels := by
  simp only [soundLayout, Bool.and_eq_true, Bool.not_eq_true', decide_eq_true_eq,
    usedBits_isSome_iff, mixesGray_eq_false_iff, List.isEmpty_eq_false_iff]
  constructor
  · rintro ⟨⟨⟨hne, hlen⟩, hfits, -, hapart⟩, hgray⟩
    exact ⟨List.length_pos_iff.mpr hne, hlen, hfits, hapart, hgray⟩
  · rintro ⟨hne, hlen, hfits, hapart, hgray⟩
    exact ⟨⟨⟨List.length_pos_iff.mp hne, hlen⟩, hfits, fun c _ => c.clear_zero, hapart⟩, hgray⟩

instance (depth : Depth) (channels : List Channel) : Decidable (Admissible depth channels) :=
  decidable_of_iff _ soundLayout_iff

end Registry

namespace Format.Sound
variable {f : Format} (hf : f.Sound)
include hf

theorem admissible : Registry.Admissible f.depth f.channels := Registry.soundLayout_iff.mp hf

theorem eq_of_holds {c c' : Channel} (hc : c ∈ f.channels) (hc' : c' ∈ f.channels) {j : Nat}
    (hj : c.Holds j) (hj' : c'.Holds j) : c = c' := by
  by_contra hne
  exact hf.admissible.apart.forall hc hc' hne j hj hj'

end Format.Sound

end Scanline

import Mathlib.Algebra.Group.Nat.Defs
import Scanline.Format.Registry
import Scanline.Proofs.Results
import Scanline.Proofs.Storage.Codec
/-! Formats with a sound layout. Their channels have bits inside the depth, so every pixel has a
color, every color has a pixel, and a conversion between two such formats answers a pixel that the
target can store. -/

namespace Scanline

theorem Depth.and_mask_of_testBit {d : Depth} {v : Pixel}
    (h : ∀ j, d.bits ≤ j → v.toNat.testBit j = false) : v &&& d.mask = v := by
  refine (and_mask_eq_of_testBit fun j => ?_).symm
  by_cases hj : j < d.bits
  · simp [hj]
  · simp [hj, h j (Nat.not_lt.mp hj)]

theorem toNat_shiftLeft_of_lt (v : Pixel) {n : Nat} (hn : n < 32) :
    (v <<< n.toUInt32).toNat = v.toNat <<< n % 2 ^ 32 := by
  rw [UInt32.toNat_shiftLeft, Nat.toUInt32, UInt32.toNat_ofNat',
    Nat.mod_mod_of_dvd _ (Nat.dvd_of_mod_eq_zero rfl), Nat.mod_eq_of_lt hn]

namespace Channel
variable {c : Channel} {d : Depth}

theorem testBit_lowBits (n j : Nat) :
    (lowBits n).toNat.testBit j = (decide (j < n) && decide (j < 32)) := by
  unfold lowBits
  split
  · rename_i hn
    rw [show (0xffffffff : UInt32).toNat = 2 ^ 32 - 1 from rfl, Nat.testBit_two_pow_sub_one]
    by_cases hj : j < 32
    · simp [hj, show j < n by omega]
    · simp [hj]
  · rename_i hn
    have hpow : 1 <<< n < 2 ^ 32 := by
      rw [Nat.one_shiftLeft]
      exact Nat.pow_lt_pow_right (by decide) (by omega)
    have hshift : ((1 : Pixel) <<< n.toUInt32).toNat = 2 ^ n := by
      rw [toNat_shiftLeft_of_lt _ (by omega), UInt32.toNat_one, Nat.mod_eq_of_lt hpow,
        Nat.one_shiftLeft]
    have hone : (1 : Pixel) ≤ 1 <<< n.toUInt32 := by
      rw [UInt32.le_iff_toNat_le, hshift]
      exact Nat.one_le_two_pow
    rw [UInt32.toNat_sub_of_le _ _ hone, hshift, UInt32.toNat_one, Nat.testBit_two_pow_sub_one]
    by_cases hj : j < n
    · simp [hj, show j < 32 by omega]
    · simp [hj]

/-- The channel has bits, and they lie in the depth. -/
structure Fits (d : Depth) (c : Channel) : Prop where
  pos : 0 < c.size
  le : c.offset + c.size ≤ d.bits

theorem full_ne_zero (h : 0 < c.size) : c.full ≠ 0 := by
  intro hz
  have hbit := testBit_lowBits c.size 0
  rw [← full, hz] at hbit
  simp [h] at hbit

theorem exists_get8 (h : 0 < c.size) (p : Pixel) : ∃ v, c.get8 p = .ok v := by
  unfold get8
  split
  · exact ⟨_, rfl⟩
  · rw [if_neg (full_ne_zero h)]
    exact ⟨_, rfl⟩

theorem eq_zeroDivision_of_get8 {p : Pixel} {e : Failure} (h : c.get8 p = .error e) :
    e = .fault .zeroDivision := by
  unfold get8 at h
  split at h
  · cases h
  split at h
  · exact (Except.error.inj h).symm
  · cases h

theorem Fits.testBit_put8 (h : c.Fits d) (v : UInt8) {j : Nat} (hj : d.bits ≤ j) :
    (c.put8 v).toNat.testBit j = false := by
  have hd := d.bits_le
  obtain ⟨hpos, hle⟩ := h
  unfold put8
  dsimp only
  rw [toNat_shiftLeft_of_lt _ (by omega), Nat.testBit_mod_two_pow, Nat.testBit_shiftLeft,
    UInt32.toNat_and, Nat.testBit_and, full, testBit_lowBits,
    decide_eq_false (show ¬j - c.offset < c.size by omega)]
  simp

end Channel

namespace Format

/-- The layout is one that a registry admits. -/
def Sound (f : Format) : Prop := Registry.soundLayout f.depth f.channels = true

instance (f : Format) : Decidable f.Sound := inferInstanceAs (Decidable (_ = _))

theorem fits_of_usedBits {d : Depth} {used : Pixel} {channels : List Channel}
    (h : (Registry.usedBits d used channels).isSome = true) : ∀ c ∈ channels, c.Fits d := by
  induction channels generalizing used with
  | nil => exact fun c hc => absurd hc List.not_mem_nil
  | cons c rest ih =>
    unfold Registry.usedBits at h
    split at h
    · exact absurd h Bool.false_ne_true
    rename_i hfit
    dsimp only at h
    split at h
    · exact absurd h Bool.false_ne_true
    intro c' hc'
    rcases List.mem_cons.mp hc' with rfl | hc'
    · exact ⟨by omega, by omega⟩
    · exact ih h c' hc'

theorem exists_foldlM_unpackChannel (p : Pixel) {channels : List Channel}
    (h : ∀ c ∈ channels, 0 < c.size) (color : Rgba) :
    ∃ color', channels.foldlM (unpackChannel p) color = .ok color' := by
  induction channels generalizing color with
  | nil => exact ⟨color, rfl⟩
  | cons c rest ih =>
    obtain ⟨v, hv⟩ := Channel.exists_get8 (h c List.mem_cons_self) p
    obtain ⟨next, hnext⟩ : ∃ next, unpackChannel p color c = .ok next := by
      unfold unpackChannel
      rw [hv]
      split
      all_goals exact ⟨_, rfl⟩
    rw [List.foldlM_cons, hnext]
    exact ih (fun c hc => h c (List.mem_cons_of_mem _ hc)) next

theorem eq_zeroDivision_of_unpackChannel {p : Pixel} {color : Rgba} {c : Channel} {e : Failure}
    (h : unpackChannel p color c = .error e) : e = .fault .zeroDivision := by
  unfold unpackChannel at h
  split at h
  · cases h
  all_goals exact Channel.eq_zeroDivision_of_get8 (eq_error_of_map_eq_error h)

/-- A color is missing only where a channel has no values, and then it takes a division by zero. -/
theorem eq_zeroDivision_of_convert {f g : Format} {p : Pixel} {e : Failure}
    (h : f.convert p g = .error e) : e = .fault .zeroDivision := by
  unfold convert at h
  split at h
  · cases h
  · exact of_foldlM_eq_error (fun _ _ _ => eq_zeroDivision_of_unpackChannel)
      (eq_error_of_map_eq_error h)

theorem testBit_foldl_packChannel {color : Rgba} {channels : List Channel} {j : Nat}
    (h : ∀ c ∈ channels, (packChannel color c).toNat.testBit j = false) {p : Pixel}
    (hp : p.toNat.testBit j = false) :
    (channels.foldl (fun p c => p ||| packChannel color c) p).toNat.testBit j = false := by
  induction channels generalizing p with
  | nil => exact hp
  | cons c rest ih =>
    refine ih (fun c hc => h c (List.mem_cons_of_mem _ hc)) ?_
    rw [UInt32.toNat_or, Nat.testBit_or, hp, Bool.false_or]
    exact h c List.mem_cons_self

section Sound
variable {f g : Format} (hf : f.Sound)
include hf

theorem Sound.fits {c : Channel} (hc : c ∈ f.channels) : c.Fits f.depth := by
  simp only [Sound, Registry.soundLayout, Bool.and_eq_true] at hf
  exact fits_of_usedBits hf.1.2 c hc

theorem Sound.exists_unpack (p : Pixel) : ∃ color, f.unpack p = .ok color :=
  exists_foldlM_unpackChannel p (fun _ hc => (hf.fits hc).pos) _

theorem Sound.testBit_packChannel {c : Channel} (hc : c ∈ f.channels) (color : Rgba) {j : Nat}
    (hj : f.depth.bits ≤ j) : (packChannel color c).toNat.testBit j = false := by
  unfold packChannel
  cases c.kind with
  | pad => exact Nat.zero_testBit j
  | red | green | blue | alpha | value => exact (hf.fits hc).testBit_put8 _ hj

theorem Sound.pack_and_mask (color : Rgba) : f.pack color &&& f.depth.mask = f.pack color := by
  apply Depth.and_mask_of_testBit
  intro j hj
  exact testBit_foldl_packChannel (fun c hc => hf.testBit_packChannel hc color hj)
    (Nat.zero_testBit j)

theorem Sound.exists_convert (hg : g.Sound) (p : Pixel) :
    ∃ v, f.convert p g = .ok v ∧ v &&& g.depth.mask = v := by
  unfold convert
  split
  · exact ⟨_, rfl, by rw [UInt32.and_assoc, UInt32.and_self]⟩
  · obtain ⟨color, hcolor⟩ := hf.exists_unpack p
    exact ⟨g.pack color, by rw [hcolor]; rfl, hg.pack_and_mask color⟩

end Sound

end Format

end Scanline

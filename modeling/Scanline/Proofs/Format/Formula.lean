import Mathlib.Tactic.Ring
import Scanline.Proofs.Format.Projection
/-! Scaling in proportion. A level of `n` bits stands to `2 ^ n - 1` as its value stands to 255,
rounded down when it is read and to the nearest level when it is written. Channels of up to eight
bits scale so. A wider channel holds a value in its top eight bits: it reads at most one more than
the proportion, and it writes the nearest level without its low bits, so white does not fill it. -/

namespace Scanline

namespace Level
variable {n l v : Nat}

/-- The value `v` is what a channel of `n` bits shows for level `l`. -/
structure ReadAs (n l v : Nat) : Prop where
  narrow : n ≤ 8 → v = l * 255 / (2 ^ n - 1)
  wide : 8 < n → v = l / 2 ^ (n - 8)
  ge_proportion : l * 255 / (2 ^ n - 1) ≤ v
  le_proportion : v ≤ l * 255 / (2 ^ n - 1) + 1

/-- The level `l` is what a channel of `n` bits stores for value `v`. -/
structure WrittenAs (n v l : Nat) : Prop where
  narrow : n ≤ 8 → l = (v * (2 ^ n - 1) + 127) / 255
  wide : 8 < n → l = v * 2 ^ (n - 8)
  clears_low : 8 < n → l = (v * (2 ^ n - 1) + 127) / 255 / 2 ^ (n - 8) * 2 ^ (n - 8)
  full : v = 255 → l = if n ≤ 8 then 2 ^ n - 1 else 2 ^ n - 2 ^ (n - 8)

section Wide
variable (hn : 8 ≤ n)
include hn

theorem exists_low : ∃ m, 2 ^ (n - 8) = m + 1 ∧ 2 ^ n - 1 = 256 * m + 255 := by
  obtain ⟨m, hlow⟩ := Nat.exists_eq_add_one.mpr (Nat.two_pow_pos (n - 8))
  refine ⟨m, hlow, ?_⟩
  rw [two_pow_eq hn, hlow]
  omega

theorem proportion_le_toByte (l : Nat) : l * 255 / (2 ^ n - 1) ≤ toByte n l := by
  obtain ⟨m, hlow, hfull⟩ := exists_low hn
  rw [toByte_of_ge hn, hlow, hfull]
  -- With `q` in the top eight bits the level stays below `(q + 1) * 2 ^ (n - 8)`, and its
  -- proportion below `q + 1`.
  generalize hq : l / (m + 1) = q
  have hup : l < q * (m + 1) + (m + 1) := hq ▸ Nat.lt_div_mul_add (Nat.succ_pos m)
  have hmul : (q + 1) * (256 * m + 255) = 256 * (q * m) + 255 * q + 256 * m + 255 := by ring
  rw [Nat.mul_add, Nat.mul_one] at hup
  rw [← Nat.lt_add_one_iff, Nat.div_lt_iff_lt_mul (Nat.succ_pos _), hmul]
  omega

theorem toByte_le_proportion (hl : l < 2 ^ n) : toByte n l ≤ l * 255 / (2 ^ n - 1) + 1 := by
  obtain ⟨m, hlow, hfull⟩ := exists_low hn
  have hbyte := toByte_lt hl
  rw [toByte_of_ge hn, hlow] at hbyte ⊢
  rw [hfull]
  cases hq : l / (m + 1) with
  | zero => exact Nat.zero_le _
  | succ q =>
    rw [hq] at hbyte
    have hdown := Nat.div_mul_le_self l (m + 1)
    have hsmall : q * m ≤ 254 * m := Nat.mul_le_mul_right m (by omega)
    have hmul : q * (256 * m + 255) = 256 * (q * m) + 255 * q := by ring
    rw [hq, Nat.mul_add, Nat.add_mul] at hdown
    rw [Nat.add_le_add_iff_right, Nat.le_div_iff_mul_le (Nat.succ_pos _), hmul]
    omega

theorem nearest_div (hv : v < 256) : (v * (2 ^ n - 1) + 127) / 255 / 2 ^ (n - 8) = v := by
  obtain ⟨m, hlow, hfull⟩ := exists_low hn
  rw [hlow, hfull, Nat.div_div_eq_div_mul]
  have hsmall : v * m ≤ 255 * m := Nat.mul_le_mul_right m (by omega)
  have hmul : v * (256 * m + 255) = 256 * (v * m) + 255 * v := by ring
  have hlower : v * (255 * (m + 1)) = 255 * (v * m) + 255 * v := by ring
  have hupper : (v + 1) * (255 * (m + 1)) = 255 * (v * m) + 255 * v + 255 * m + 255 := by ring
  rw [hmul]
  apply Nat.div_eq_of_lt_le
  · omega
  · omega

end Wide

theorem ofByte_full : ofByte n 255 = if n ≤ 8 then 2 ^ n - 1 else 2 ^ n - 2 ^ (n - 8) := by
  split
  · rename_i hn
    rw [ofByte_of_le hn]
    omega
  · rename_i hn
    rw [ofByte_of_ge (by omega), two_pow_eq (n := n) (by omega)]
    omega

theorem readAs_toByte (hl : l < 2 ^ n) : ReadAs n l (toByte n l) where
  narrow hn := toByte_of_le hn l
  wide hn := toByte_of_ge (Nat.le_of_lt hn) l
  ge_proportion := by
    rcases Nat.le_total n 8 with hn | hn
    · exact (toByte_of_le hn l).ge
    · exact proportion_le_toByte hn l
  le_proportion := by
    rcases Nat.le_total n 8 with hn | hn
    · rw [toByte_of_le hn]
      exact Nat.le_succ _
    · exact toByte_le_proportion hn hl

theorem writtenAs_ofByte (hv : v < 256) : WrittenAs n v (ofByte n v) where
  narrow hn := ofByte_of_le hn v
  wide hn := ofByte_of_ge (Nat.le_of_lt hn) v
  clears_low hn := by rw [nearest_div (Nat.le_of_lt hn) hv, ofByte_of_ge (Nat.le_of_lt hn)]
  full hfull := by rw [hfull, ofByte_full]

end Level

namespace Format
variable {f : Format} {c : Channel}

theorem Sound.level_pack_of_pad (hf : f.Sound) (hc : c ∈ f.channels) (hpad : c.kind = .pad)
    (color : Rgba) : (c.level (f.pack color)).toNat = 0 := by
  apply Nat.eq_of_testBit_eq
  intro j
  rw [(hf.fits hc).testBit_level, Nat.zero_testBit, Bool.eq_false_iff, Ne, Bool.and_eq_true,
    decide_eq_true_eq]
  rintro ⟨hj, hbit⟩
  obtain ⟨c', hc', hkind, hholds⟩ := hf.confined_pack color _ hbit
  obtain rfl := hf.eq_of_holds hc hc' ⟨Nat.le_add_right _ _, by omega⟩ hholds
  exact hkind hpad

/-- Every channel of a known format reads and writes its levels in proportion if it has at most
eight bits, and by its top eight bits if it has more. A color shows the last channel of each kind.
-/
theorem Known.scales (hf : f.Known) (hc : c ∈ f.channels) :
    (∀ p, ∃ v color, c.get8 p = .ok v ∧ f.unpack p = .ok color ∧
      (f.lastOf c.kind = some c → color.withPart c.kind v = color) ∧
      Level.ReadAs c.size (c.level p).toNat v.toNat) ∧
    ∀ color, (c.kind = .pad → (c.level (f.pack color)).toNat = 0) ∧
      (c.kind ≠ .pad → Level.WrittenAs c.size (color.part c.kind).toNat
        (c.level (f.pack color)).toNat) := by
  have hs := hf.sound
  have hfit := hs.fits hc
  refine ⟨fun p => ?_, fun color =>
    ⟨fun hpad => hs.level_pack_of_pad hc hpad color, fun hkind => ?_⟩⟩
  · obtain ⟨color, hcolor⟩ := hs.exists_unpack p
    refine ⟨c.read p, color, hfit.get8_eq p, hcolor, hs.withPart_of_unpack hcolor, ?_⟩
    rw [hfit.toNat_read]
    exact Level.readAs_toByte (hfit.level_lt p)
  · rw [hs.level_pack color hc hkind]
    exact Level.writtenAs_ofByte (color.part c.kind).toNat_lt

theorem scales_rgb10a2 : rgb10a2.Known ∧ ⟨.green, 12, 10⟩ ∈ rgb10a2.channels ∧
    (∃ v color, (⟨.green, 12, 10⟩ : Channel).get8 0x1ff000 = .ok v ∧
      rgb10a2.unpack 0x1ff000 = .ok color ∧ color.withPart .green v = color ∧ v.toNat = 127) ∧
    ((⟨.green, 12, 10⟩ : Channel).level (rgb10a2.pack ⟨0, 255, 0, 0⟩)).toNat = 1020 := by
  have hc : ⟨.green, 12, 10⟩ ∈ rgb10a2.channels := by decide
  obtain ⟨hread, hwrite⟩ := known_rgb10a2.scales hc
  obtain ⟨v, color, hv, hcolor, hshow, hvalue⟩ := hread 0x1ff000
  have hlevel := ((hwrite ⟨0, 255, 0, 0⟩).2 (by decide)).full rfl
  exact ⟨known_rgb10a2, hc, ⟨v, color, hv, hcolor, hshow (by decide),
    (hvalue.wide (by decide)).trans (by decide)⟩, hlevel.trans (by decide)⟩

/-- Gray in one channel of two bytes. -/
def y16 : Format := ⟨9, "Y16", .sixteen, [⟨.value, 0, 16⟩]⟩

/-- Neither way is in proportion for a wide channel: level 256 reads as 1 where 0 is in proportion,
and white is written below the nearest level, which is the greatest. -/
theorem y16_not_in_proportion : y16.Known ∧ ⟨.value, 0, 16⟩ ∈ y16.channels ∧
    ((⟨.value, 0, 16⟩ : Channel).level 256).toNat = 256 ∧
    y16.unpack 256 = .ok ⟨1, 1, 1, 255⟩ ∧ 256 * 255 / (2 ^ 16 - 1) = 0 ∧
    ((⟨.value, 0, 16⟩ : Channel).level (y16.pack ⟨255, 255, 255, 255⟩)).toNat ≠
      (255 * (2 ^ 16 - 1) + 127) / 255 ∧
    (255 * (2 ^ 16 - 1) + 127) / 255 = 2 ^ 16 - 1 :=
  ⟨known_of_new_name (by decide) (by decide), by decide, by decide, rfl, by decide, by decide,
    by decide⟩

end Format

end Scanline

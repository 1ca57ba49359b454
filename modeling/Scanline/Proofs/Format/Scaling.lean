import Scanline.Proofs.Format.Fields
/-! Levels of a channel against eight-bit values. A channel of up to eight bits scales by its
greatest level, down on the way out and to the nearest level on the way in; a wider one gives its
top eight bits and takes a value into them. Either way a value that was stored once is stored the
same again. -/

namespace Scanline

namespace Level
variable {n l v : Nat}

/-- The eight-bit value of level `l` of `n` bits. -/
def toByte (n l : Nat) : Nat := if 8 ≤ n then l / 2 ^ (n - 8) else l * 255 / (2 ^ n - 1)

/-- The level of `n` bits that stands for the eight-bit value `v`. -/
def ofByte (n v : Nat) : Nat := if 8 ≤ n then v * 2 ^ (n - 8) else (v * (2 ^ n - 1) + 127) / 255

theorem full_bounds (hpos : 0 < n) (hn : n < 8) : 1 ≤ 2 ^ n - 1 ∧ 2 ^ n - 1 ≤ 127 := by
  have hlow : 2 ^ 1 ≤ 2 ^ n := Nat.pow_le_pow_right (by decide) hpos
  have hhigh : 2 ^ n ≤ 2 ^ 7 := Nat.pow_le_pow_right (by decide) (by omega)
  omega

theorem two_pow_eq (hn : 8 ≤ n) : 2 ^ n = 256 * 2 ^ (n - 8) := by
  rw [show (256 : Nat) = 2 ^ 8 from rfl, ← Nat.pow_add, Nat.add_sub_cancel' hn]

theorem toByte_of_ge (hn : 8 ≤ n) (l : Nat) : toByte n l = l / 2 ^ (n - 8) := if_pos hn

theorem ofByte_of_ge (hn : 8 ≤ n) (v : Nat) : ofByte n v = v * 2 ^ (n - 8) := if_pos hn

/-- At eight bits the two ways to scale agree. -/
theorem toByte_of_le (hn : n ≤ 8) (l : Nat) : toByte n l = l * 255 / (2 ^ n - 1) := by
  rcases Nat.lt_or_eq_of_le hn with hlt | rfl
  · exact if_neg (Nat.not_le.mpr hlt)
  · rw [toByte_of_ge (Nat.le_refl 8)]
    omega

theorem ofByte_of_le (hn : n ≤ 8) (v : Nat) : ofByte n v = (v * (2 ^ n - 1) + 127) / 255 := by
  rcases Nat.lt_or_eq_of_le hn with hlt | rfl
  · exact if_neg (Nat.not_le.mpr hlt)
  · rw [ofByte_of_ge (Nat.le_refl 8)]
    omega

theorem toByte_lt (hl : l < 2 ^ n) : toByte n l < 256 := by
  by_cases hn : 8 ≤ n
  · rw [toByte_of_ge hn]
    rw [two_pow_eq hn] at hl
    exact Nat.div_lt_of_lt_mul (Nat.mul_comm _ _ ▸ hl)
  · rw [toByte_of_le (by omega), Nat.lt_succ_iff]
    apply Nat.div_le_of_le_mul
    exact Nat.mul_le_mul_right 255 (by omega)

theorem ofByte_lt (hpos : 0 < n) (hv : v < 256) : ofByte n v < 2 ^ n := by
  by_cases hn : 8 ≤ n
  · rw [ofByte_of_ge hn, two_pow_eq hn]
    exact Nat.mul_lt_mul_of_pos_right hv (Nat.two_pow_pos _)
  · have hfull := full_bounds hpos (by omega)
    have hmul : v * (2 ^ n - 1) ≤ 255 * (2 ^ n - 1) := Nat.mul_le_mul_right _ (by omega)
    rw [ofByte_of_le (by omega)]
    omega

theorem ofByte_toByte (hpos : 0 < n) (hn : n ≤ 8) (l : Nat) : ofByte n (toByte n l) = l := by
  rcases Nat.lt_or_eq_of_le hn with hlt | rfl
  · -- Rounding down to eight bits loses less than the greatest level, which is at most 127, and 127
    -- is what rounding back adds.
    obtain ⟨hlow, hhigh⟩ := full_bounds hpos hlt
    rw [ofByte_of_le hn, toByte_of_le hn]
    have hdown := Nat.div_mul_le_self (l * 255) (2 ^ n - 1)
    have hup := Nat.lt_div_mul_add (a := l * 255) hlow
    apply Nat.div_eq_of_lt_le
    · omega
    · omega
  · rw [ofByte_of_ge (Nat.le_refl 8), toByte_of_ge (Nat.le_refl 8)]
    omega

theorem toByte_ofByte (hn : 8 ≤ n) (v : Nat) : toByte n (ofByte n v) = v := by
  rw [toByte_of_ge hn, ofByte_of_ge hn, Nat.mul_div_cancel _ (Nat.two_pow_pos _)]

theorem ofByte_toByte_ofByte (hpos : 0 < n) (v : Nat) :
    ofByte n (toByte n (ofByte n v)) = ofByte n v := by
  rcases Nat.le_total n 8 with hn | hn
  · exact ofByte_toByte hpos hn _
  · rw [toByte_ofByte hn]

end Level

namespace Channel
variable {c : Channel} {d : Depth}

/-- The eight-bit value that a pixel holds in the channel. -/
def read (c : Channel) (p : Pixel) : UInt8 := (Level.toByte c.size (c.level p).toNat).toUInt8

theorem Fits.toNat_full (h : c.Fits d) : c.full.toNat = 2 ^ c.size - 1 := by
  have hsize := h.size_le
  apply Nat.eq_of_testBit_eq
  intro j
  rw [full, testBit_lowBits, Nat.testBit_two_pow_sub_one, ← Bool.decide_and]
  congr 1
  simp only [eq_iff_iff]
  omega

theorem Fits.toNat_level (h : c.Fits d) (p : Pixel) :
    (c.level p).toNat = (p.toNat >>> c.offset) % 2 ^ c.size := by
  rw [level, UInt32.toNat_and, toNat_shiftRight_of_lt _ h.offset_lt, h.toNat_full,
    Nat.and_two_pow_sub_one_eq_mod]

theorem Fits.level_lt (h : c.Fits d) (p : Pixel) : (c.level p).toNat < 2 ^ c.size := by
  rw [h.toNat_level]
  exact Nat.mod_lt _ (Nat.two_pow_pos _)

theorem Fits.testBit_level (h : c.Fits d) (p : Pixel) (j : Nat) :
    (c.level p).toNat.testBit j = (decide (j < c.size) && p.toNat.testBit (c.offset + j)) := by
  rw [h.toNat_level, Nat.testBit_mod_two_pow, Nat.testBit_shiftRight]

theorem Fits.testBit_level_of_holds (h : c.Fits d) (p : Pixel) {j : Nat} (hj : c.Holds j) :
    (c.level p).toNat.testBit (j - c.offset) = p.toNat.testBit j := by
  obtain ⟨hge, hlt⟩ := hj
  rw [h.testBit_level, decide_eq_true (by omega), Bool.true_and, Nat.add_sub_cancel' hge]

theorem Fits.toNat_read (h : c.Fits d) (p : Pixel) :
    (c.read p).toNat = Level.toByte c.size (c.level p).toNat := by
  rw [read, Nat.toUInt8, UInt8.toNat_ofNat', Nat.mod_eq_of_lt (Level.toByte_lt (h.level_lt p))]

section Wide
variable (h : c.Fits d) (hn : 8 ≤ c.size)
include h hn

theorem Fits.toNat_level_shift (p : Pixel) :
    (c.level p >>> (c.size - 8).toUInt32).toNat = Level.toByte c.size (c.level p).toNat := by
  have hsize := h.size_le
  rw [toNat_shiftRight_of_lt _ (by omega), Nat.shiftRight_eq_div_pow, Level.toByte_of_ge hn]

theorem Fits.toNat_byte_shift (v : UInt8) :
    (v.toUInt32 <<< (c.size - 8).toUInt32).toNat = Level.ofByte c.size v.toNat := by
  have hsize := h.size_le
  have hlt := Level.ofByte_lt h.pos v.toNat_lt
  have hpow : 2 ^ c.size ≤ 2 ^ 32 := Nat.pow_le_pow_right (by decide) hsize
  rw [Level.ofByte_of_ge hn] at hlt ⊢
  rw [toNat_shiftLeft_of_lt _ (by omega), UInt8.toNat_toUInt32, Nat.shiftLeft_eq,
    Nat.mod_eq_of_lt (Nat.lt_of_lt_of_le hlt hpow)]

end Wide

section Narrow
variable (h : c.Fits d) (hn : c.size < 8)
include h hn

theorem Fits.toNat_level_mul (p : Pixel) : (c.level p * 255).toNat = (c.level p).toNat * 255 := by
  have hlt := h.level_lt p
  have hfull := Level.full_bounds h.pos hn
  have hsmall : (c.level p).toNat * 255 < 2 ^ 32 := by omega
  rw [UInt32.toNat_mul]
  exact Nat.mod_eq_of_lt hsmall

theorem Fits.byte_mul_le (v : UInt8) : v.toNat * (2 ^ c.size - 1) ≤ 255 * 127 :=
  Nat.mul_le_mul (Nat.le_of_lt_succ v.toNat_lt) (Level.full_bounds h.pos hn).2

theorem Fits.toNat_byte_mul (v : UInt8) :
    (v.toUInt32 * c.full).toNat = v.toNat * (2 ^ c.size - 1) := by
  have hle := h.byte_mul_le hn v
  rw [UInt32.toNat_mul, UInt8.toNat_toUInt32, h.toNat_full, Nat.mod_eq_of_lt (by omega)]

theorem Fits.toNat_byte_mul_add (v : UInt8) :
    (v.toUInt32 * c.full + 127).toNat = (v.toUInt32 * c.full).toNat + 127 := by
  have hle := h.byte_mul_le hn v
  have hsmall : (v.toUInt32 * c.full).toNat + 127 < 2 ^ 32 := by
    rw [h.toNat_byte_mul hn]
    omega
  rw [UInt32.toNat_add]
  exact Nat.mod_eq_of_lt hsmall

theorem Fits.toNat_level_div (p : Pixel) :
    (c.level p * 255 / c.full).toNat = Level.toByte c.size (c.level p).toNat := by
  rw [UInt32.toNat_div, h.toNat_level_mul hn, h.toNat_full, Level.toByte_of_le (Nat.le_of_lt hn)]

theorem Fits.toNat_byte_div (v : UInt8) :
    ((v.toUInt32 * c.full + 127) / 255).toNat = Level.ofByte c.size v.toNat := by
  rw [UInt32.toNat_div, h.toNat_byte_mul_add hn, h.toNat_byte_mul hn,
    Level.ofByte_of_le (Nat.le_of_lt hn)]
  rfl

end Narrow

theorem Fits.get8_eq (h : c.Fits d) (p : Pixel) : c.get8 p = .ok (c.read p) := by
  unfold get8
  by_cases hn : 8 ≤ c.size
  · rw [if_pos hn, read, ← h.toNat_level_shift hn]
    rfl
  · rw [if_neg hn, if_neg (full_ne_zero h.pos), read, ← h.toNat_level_div (Nat.not_le.mp hn)]
    rfl

theorem Fits.toNat_stored (h : c.Fits d) (v : UInt8) :
    (if c.size ≥ 8 then v.toUInt32 <<< (c.size - 8).toUInt32
      else (v.toUInt32 * c.full + 127) / 255).toNat = Level.ofByte c.size v.toNat := by
  split
  · rename_i hn
    exact h.toNat_byte_shift hn v
  · rename_i hn
    exact h.toNat_byte_div (Nat.not_le.mp hn) v

/-- A level stays in the word when it is moved into place. -/
theorem Fits.shiftLeft_lt (h : c.Fits d) {n : Nat} (hn : n < 2 ^ c.size) :
    n <<< c.offset < 2 ^ 32 := by
  have hd := d.bits_le
  have hle := h.le
  rw [Nat.shiftLeft_eq]
  calc n * 2 ^ c.offset
      < 2 ^ c.size * 2 ^ c.offset := Nat.mul_lt_mul_of_pos_right hn (Nat.two_pow_pos _)
    _ = 2 ^ (c.size + c.offset) := (Nat.pow_add 2 _ _).symm
    _ ≤ 2 ^ 32 := Nat.pow_le_pow_right (by decide) (by omega)

theorem Fits.toNat_put8 (h : c.Fits d) (v : UInt8) :
    (c.put8 v).toNat = Level.ofByte c.size v.toNat <<< c.offset := by
  have hlt := Level.ofByte_lt h.pos v.toNat_lt
  unfold put8
  dsimp only
  rw [toNat_shiftLeft_of_lt _ h.offset_lt, UInt32.toNat_and, h.toNat_stored, h.toNat_full,
    Nat.and_two_pow_sub_one_eq_mod, Nat.mod_eq_of_lt hlt, Nat.mod_eq_of_lt (h.shiftLeft_lt hlt)]

end Channel

end Scanline

import Scanline.Proofs.Storage.Bits
/-! Pixels as runs of bits. Pixel `x` of a row takes the bits of the data from `firstBit row x` on,
as many as its depth has. A write sets these and no others, and a read gives back what they hold. -/

namespace Scanline

theorem testBit_not_byte (b : UInt8) {j : Nat} (hj : j < 8) :
    (~~~b).toNat.testBit j = !b.toNat.testBit j := by
  have h : UInt8.size - 1 - b.toNat = 2 ^ 8 - (b.toNat + 1) := by
    simp only [UInt8.size]
    omega
  rw [UInt8.toNat_not, h, Nat.testBit_two_pow_sub_succ b.toNat_lt, decide_eq_true hj, Bool.true_and]

theorem readWord_spec {data : ByteArray} {n i : Nat} (hn : n ≤ 4) (h : i + n ≤ data.size) :
    ∃ v, readWord data n i = .ok v ∧ ∀ j, v.toNat.testBit j =
      (decide (j < 8 * n) && (byteAt data (i + j / 8)).toNat.testBit (j % 8)) := by
  induction n generalizing i with
  | zero => exact ⟨0, rfl, fun j => by simp⟩
  | succ n ih =>
    have hi : i < data.size := by omega
    obtain ⟨rest, hrest, hbits⟩ := ih (i := i + 1) (by omega) (by omega)
    -- Bits below 8 come from the first byte, all others from the rest, 8 places further down.
    refine ⟨data[i].toUInt32 ||| (rest <<< 8), by simp only [readWord, dif_pos hi, hrest], ?_⟩
    intro j
    simp only [UInt32.toNat_or, UInt32.toNat_shiftLeft, UInt8.toNat_toUInt32, Nat.testBit_or,
      Nat.testBit_mod_two_pow, Nat.testBit_shiftLeft, UInt32.reduceToNat, Nat.reduceMod, hbits]
    by_cases hj : j < 8
    · have hq : j / 8 = 0 := by omega
      have hr : j % 8 = j := by omega
      simp [hq, hr, byteAt_of_lt hi, show ¬j ≥ 8 by omega, show j < 8 * (n + 1) by omega]
    · have hq : i + 1 + (j - 8) / 8 = i + j / 8 := by omega
      have hr : (j - 8) % 8 = j % 8 := by omega
      rw [testBit_eq_false_of_byte _ (by omega), hq, hr]
      by_cases hlt : j < 8 * (n + 1)
      · simp [hlt, show j ≥ 8 by omega, show j < 32 by omega, show j - 8 < 8 * n by omega]
      · simp [hlt, show ¬j - 8 < 8 * n by omega]

theorem writeWord_spec {data : ByteArray} {n i : Nat} {v : Pixel} (h : i + n ≤ data.size) :
    ∃ data', writeWord data n i v = .ok data' ∧ data'.size = data.size ∧
      ∀ j t, t < 8 → (byteAt data' j).toNat.testBit t =
        if i ≤ j ∧ j < i + n then v.toNat.testBit (8 * (j - i) + t)
        else (byteAt data j).toNat.testBit t := by
  induction n generalizing i v data with
  | zero => exact ⟨data, rfl, rfl, fun j t _ => by rw [if_neg (by omega)]⟩
  | succ n ih =>
    have hi : i < data.size := by omega
    obtain ⟨data', hw, hs, hb⟩ := ih (v := v >>> 8)
      (show i + 1 + n ≤ (data.set i v.toUInt8 hi).size by rw [size_set]; omega)
    refine ⟨data', by simp only [writeWord, dif_pos hi, hw], by rw [hs, size_set], ?_⟩
    intro j t ht
    rw [hb j t ht, byteAt_set]
    by_cases hj : j = i
    · subst hj
      rw [if_neg (by omega), if_pos rfl, if_pos (by omega), Nat.sub_self, Nat.mul_zero,
        Nat.zero_add, UInt32.toNat_toUInt8, Nat.testBit_mod_two_pow, decide_eq_true ht,
        Bool.true_and]
    by_cases hr : i + 1 ≤ j ∧ j < i + 1 + n
    · rw [if_pos hr, if_pos (by omega), UInt32.toNat_shiftRight, Nat.testBit_shiftRight]
      congr 1
      simp only [UInt32.reduceToNat, Nat.reduceMod]
      omega
    · rw [if_neg hr, if_neg hj, if_neg (by omega)]

namespace Depth

/-- The first bit of pixel `x` of the row at byte `row`. -/
def firstBit (d : Depth) (row x : Nat) : Nat := 8 * row + x * d.bits

/-- Which bit of a pixel value is stored `o` bits after the first one. -/
def place (d : Depth) (o : Nat) : Nat := 8 * (o / 8) + (min d.bits 8 - 1 - o % 8)

theorem place_lt {d : Depth} {o : Nat} (h : o < d.bits) : d.place o < d.bits := by
  cases d <;> simp only [place, bits] at h ⊢ <;> omega

theorem place_place {d : Depth} {o : Nat} (h : o < d.bits) : d.place (d.place o) = o := by
  cases d <;> simp only [place, bits] at h ⊢ <;> omega

theorem testBit_mask (d : Depth) (j : Nat) : d.mask.toNat.testBit j = decide (j < d.bits) := by
  rw [toNat_mask, Nat.shiftLeft_eq, Nat.one_mul, Nat.testBit_two_pow_sub_one]

theorem and_mask_eq_of_testBit {d : Depth} {v w : Pixel}
    (h : ∀ j, w.toNat.testBit j = (decide (j < d.bits) && v.toNat.testBit j)) :
    w = v &&& d.mask := by
  apply UInt32.toNat_inj.mp
  apply Nat.eq_of_testBit_eq
  intro j
  rw [h, UInt32.toNat_and, Nat.testBit_and, testBit_mask, Bool.and_comm]

/-- The pixel at a place of the data, read without a check. -/
def load (d : Depth) (data : ByteArray) (row x : Nat) : Pixel :=
  match d.read data row x with
  | .ok v => v
  | .error _ => 0

theorem toNat_shift (d : Depth) (x : Nat) :
    (d.shift x).toNat = 8 - d.bits - x * d.bits % 8 := by
  simp only [shift, Nat.toUInt8, UInt8.toNat_ofNat']
  omega

/-- What a write of one pixel makes of the data. -/
structure Stored (d : Depth) (row x : Nat) (v : Pixel) (before after : ByteArray) : Prop where
  size_eq : after.size = before.size
  inside : ∀ o, o < d.bits →
    bitAt after (d.firstBit row x + o) = v.toNat.testBit (d.place o)
  outside : ∀ k, k < d.firstBit row x ∨ d.firstBit row x + d.bits ≤ k →
    bitAt after k = bitAt before k

section Packed
variable {d : Depth} (hp : d.isPacked = true)
include hp

theorem bits_of_isPacked : d.bits = 1 ∨ d.bits = 2 ∨ d.bits = 4 := by
  cases d <;> simp_all [isPacked, bits]

theorem place_of_isPacked {o : Nat} (ho : o < d.bits) : d.place o = d.bits - 1 - o := by
  rcases bits_of_isPacked hp with h | h | h <;> simp only [place, h] at ho ⊢ <;> omega

theorem packed_fits (x : Nat) : x * d.bits % 8 + d.bits ≤ 8 := by
  rcases bits_of_isPacked hp with h | h | h <;> rw [h] <;> omega

theorem testBit_packedMask (x : Nat) {t : Nat} (ht : t < 8) :
    (d.mask.toUInt8 <<< d.shift x).toNat.testBit t =
      decide ((d.shift x).toNat ≤ t ∧ t < (d.shift x).toNat + d.bits) := by
  have hs := d.toNat_shift x
  have hf := packed_fits hp x
  have hb := bits_of_isPacked hp
  rw [UInt8.toNat_shiftLeft, Nat.testBit_mod_two_pow, Nat.testBit_shiftLeft,
    Nat.mod_eq_of_lt (by omega), UInt32.toNat_toUInt8, Nat.testBit_mod_two_pow, testBit_mask]
  by_cases h : (d.shift x).toNat ≤ t
  · simp [ht, h, show t - (d.shift x).toNat < 8 by omega]
    omega
  · simp [h]

theorem bitAt_packed {data : ByteArray} {row x o : Nat} (ho : o < d.bits) :
    bitAt data (d.firstBit row x + o) =
      (byteAt data (d.byteIndex row x)).toNat.testBit ((d.shift x).toNat + d.place o) := by
  have hf := packed_fits hp x
  have hk : d.firstBit row x + o = 8 * d.byteIndex row x + (x * d.bits % 8 + o) := by
    simp only [firstBit, byteIndex]
    omega
  rw [hk, bitAt_add (by omega), d.toNat_shift, place_of_isPacked hp ho]
  congr 1
  omega

theorem read_packed {data : ByteArray} {row x : Nat}
    (h : d.firstBit row x + d.bits ≤ 8 * data.size) :
    ∃ v, d.read data row x = .ok v ∧ ∀ j, v.toNat.testBit j =
      (decide (j < d.bits) && bitAt data (d.firstBit row x + d.place j)) := by
  have hs := d.toNat_shift x
  have hb := bits_of_isPacked hp
  have hi : d.byteIndex row x < data.size := by
    simp only [firstBit, byteIndex] at h ⊢
    omega
  refine ⟨_, by rw [read, if_pos hp, dif_pos hi], ?_⟩
  intro j
  rw [UInt8.toNat_toUInt32, UInt8.toNat_and, Nat.testBit_and, UInt32.toNat_toUInt8,
    Nat.testBit_mod_two_pow, testBit_mask, UInt8.toNat_shiftRight, Nat.testBit_shiftRight,
    Nat.mod_eq_of_lt (by omega)]
  by_cases hj : j < d.bits
  · rw [bitAt_packed hp (place_lt hj), place_place hj, byteAt_of_lt hi]
    simp [hj, show j < 8 by omega]
  · simp [hj]

theorem write_packed {data : ByteArray} {row x : Nat} {v : Pixel}
    (h : d.firstBit row x + d.bits ≤ 8 * data.size) :
    ∃ data', d.write data row x v = .ok data' ∧ d.Stored row x v data data' := by
  have hs := d.toNat_shift x
  have hb := bits_of_isPacked hp
  have hf := packed_fits hp x
  have hi : d.byteIndex row x < data.size := by
    simp only [firstBit, byteIndex] at h ⊢
    omega
  -- The new byte, bit by bit: under the mask the value, elsewhere what was there.
  have hbit : ∀ t, t < 8 → ((data[d.byteIndex row x] &&& ~~~(d.mask.toUInt8 <<< d.shift x)) |||
      ((v.toUInt8 <<< d.shift x) &&& (d.mask.toUInt8 <<< d.shift x))).toNat.testBit t =
      if (d.shift x).toNat ≤ t ∧ t < (d.shift x).toNat + d.bits then
        v.toNat.testBit (t - (d.shift x).toNat)
      else (byteAt data (d.byteIndex row x)).toNat.testBit t := by
    intro t ht
    rw [UInt8.toNat_or, Nat.testBit_or, UInt8.toNat_and, Nat.testBit_and, testBit_not_byte _ ht,
      UInt8.toNat_and, Nat.testBit_and, testBit_packedMask hp x ht, byteAt_of_lt hi]
    by_cases hin : (d.shift x).toNat ≤ t ∧ t < (d.shift x).toNat + d.bits
    · rw [UInt8.toNat_shiftLeft, Nat.testBit_mod_two_pow, Nat.testBit_shiftLeft,
        Nat.mod_eq_of_lt (by omega), UInt32.toNat_toUInt8, Nat.testBit_mod_two_pow]
      simp [hin, ht, show t - (d.shift x).toNat < 8 by omega]
    · simp [hin]
  refine ⟨_, by rw [write, if_pos hp, dif_pos hi], size_set hi, ?_, ?_⟩
  · intro o ho
    have hpl := place_of_isPacked hp ho
    rw [bitAt_packed hp ho, byteAt_set, if_pos rfl, hbit _ (by omega), if_pos (by omega)]
    congr 1
    omega
  · intro k hk
    rw [bitAt, bitAt, byteAt_set]
    split
    · rename_i hk'
      rw [hbit _ (by omega), if_neg, hk']
      simp only [firstBit, byteIndex] at hk hk'
      omega
    · rfl

end Packed

section Whole
variable {d : Depth} (hp : d.isPacked = false)
include hp

theorem bits_of_not_isPacked : d.bits = 8 * d.bytes ∧ d.bytes ≤ 4 := by
  cases d <;> simp_all [isPacked, bits, bytes]

theorem place_of_not_isPacked (o : Nat) : d.place o = 8 * (o / 8) + (7 - o % 8) := by
  cases d <;> simp_all [isPacked, bits, place]

theorem firstBit_of_not_isPacked (row x : Nat) : d.firstBit row x = 8 * d.byteIndex row x := by
  have hb := (bits_of_not_isPacked hp).1
  have hx : x * d.bits = 8 * (x * d.bytes) := by rw [hb, Nat.mul_left_comm]
  simp only [firstBit, byteIndex, hx]
  omega

theorem byteIndex_of_not_isPacked (row x : Nat) : d.byteIndex row x = row + x * d.bytes := by
  have hk := firstBit_of_not_isPacked hp row x
  have hx : x * d.bits = 8 * (x * d.bytes) := by rw [(bits_of_not_isPacked hp).1, Nat.mul_left_comm]
  rw [firstBit, hx] at hk
  omega

theorem bitAt_whole {data : ByteArray} {row x o : Nat} :
    bitAt data (d.firstBit row x + o) =
      (byteAt data (d.byteIndex row x + o / 8)).toNat.testBit (7 - o % 8) := by
  have hk : d.firstBit row x + o = 8 * (d.byteIndex row x + o / 8) + o % 8 := by
    rw [firstBit_of_not_isPacked hp]
    omega
  rw [hk, bitAt_add (by omega)]

theorem read_whole {data : ByteArray} {row x : Nat}
    (h : d.firstBit row x + d.bits ≤ 8 * data.size) :
    ∃ v, d.read data row x = .ok v ∧ ∀ j, v.toNat.testBit j =
      (decide (j < d.bits) && bitAt data (d.firstBit row x + d.place j)) := by
  obtain ⟨hb, hn⟩ := bits_of_not_isPacked hp
  rw [firstBit_of_not_isPacked hp] at h
  obtain ⟨v, hv, hbits⟩ := readWord_spec hn (show d.byteIndex row x + d.bytes ≤ data.size by omega)
  refine ⟨v, by rw [read, hp, if_neg Bool.false_ne_true, hv], ?_⟩
  intro j
  have hpl := place_of_not_isPacked hp j
  have hq : d.place j / 8 = j / 8 := by omega
  have hr : 7 - d.place j % 8 = j % 8 := by omega
  rw [hbits, bitAt_whole hp, hb, hq, hr]

theorem write_whole {data : ByteArray} {row x : Nat} {v : Pixel}
    (h : d.firstBit row x + d.bits ≤ 8 * data.size) :
    ∃ data', d.write data row x v = .ok data' ∧ d.Stored row x v data data' := by
  obtain ⟨hb, hn⟩ := bits_of_not_isPacked hp
  have hk := firstBit_of_not_isPacked hp row x
  obtain ⟨data', hw, hs, hbyte⟩ := writeWord_spec (v := v)
    (show d.byteIndex row x + d.bytes ≤ data.size by omega)
  refine ⟨data', by rw [write, hp, if_neg Bool.false_ne_true, hw], hs, ?_, ?_⟩
  · intro o ho
    rw [bitAt_whole hp, hbyte _ _ (by omega), if_pos (by omega), place_of_not_isPacked hp]
    congr 1
    omega
  · intro k hk'
    rw [bitAt, bitAt, hbyte _ _ (by omega), if_neg (by omega)]

end Whole

section Access
variable {d : Depth} {data : ByteArray} {row x : Nat}

theorem exists_read (h : d.firstBit row x + d.bits ≤ 8 * data.size) :
    ∃ v, d.read data row x = .ok v ∧ ∀ j, v.toNat.testBit j =
      (decide (j < d.bits) && bitAt data (d.firstBit row x + d.place j)) := by
  cases hp : d.isPacked with
  | true => exact read_packed hp h
  | false => exact read_whole hp h

theorem read_eq_load (h : d.firstBit row x + d.bits ≤ 8 * data.size) :
    d.read data row x = .ok (d.load data row x) := by
  obtain ⟨v, hv, _⟩ := exists_read h
  rw [load, hv]

theorem testBit_load (h : d.firstBit row x + d.bits ≤ 8 * data.size) (j : Nat) :
    (d.load data row x).toNat.testBit j =
      (decide (j < d.bits) && bitAt data (d.firstBit row x + d.place j)) := by
  obtain ⟨v, hv, hbits⟩ := exists_read h
  rw [load, hv]
  exact hbits j

theorem bitAt_eq_testBit_load (h : d.firstBit row x + d.bits ≤ 8 * data.size) {o : Nat}
    (ho : o < d.bits) :
    bitAt data (d.firstBit row x + o) = (d.load data row x).toNat.testBit (d.place o) := by
  rw [testBit_load h, place_place ho, decide_eq_true (place_lt ho), Bool.true_and]

theorem exists_write {v : Pixel} (h : d.firstBit row x + d.bits ≤ 8 * data.size) :
    ∃ data', d.write data row x v = .ok data' ∧ d.Stored row x v data data' := by
  cases hp : d.isPacked with
  | true => exact write_packed hp h
  | false => exact write_whole hp h

theorem load_eq_of_bitAt {v : Pixel} (h : d.firstBit row x + d.bits ≤ 8 * data.size)
    (hv : ∀ o, o < d.bits → bitAt data (d.firstBit row x + o) = v.toNat.testBit (d.place o)) :
    d.load data row x = v &&& d.mask := by
  apply and_mask_eq_of_testBit
  intro j
  rw [testBit_load h]
  by_cases hj : j < d.bits
  · rw [hv _ (place_lt hj), place_place hj]
  · simp [hj]

theorem load_congr {data' : ByteArray} {row' x' : Nat}
    (h : d.firstBit row x + d.bits ≤ 8 * data.size)
    (h' : d.firstBit row' x' + d.bits ≤ 8 * data'.size)
    (hb : ∀ o, o < d.bits →
      bitAt data (d.firstBit row x + o) = bitAt data' (d.firstBit row' x' + o)) :
    d.load data row x = d.load data' row' x' := by
  apply UInt32.toNat_inj.mp
  apply Nat.eq_of_testBit_eq
  intro j
  rw [testBit_load h, testBit_load h']
  by_cases hj : j < d.bits
  · rw [hb _ (place_lt hj)]
  · simp [hj]

theorem load_and_mask (h : d.firstBit row x + d.bits ≤ 8 * data.size) :
    d.load data row x &&& d.mask = d.load data row x := by
  refine (and_mask_eq_of_testBit fun j => ?_).symm
  rw [testBit_load h]
  cases decide (j < d.bits) <;> simp

/-- Whole pixels are copied with their bytes. -/
theorem load_copySlice {src dst : ByteArray} {s e len row' x' : Nat} (hp : d.isPacked = false)
    (hs : s + len ≤ src.size) (he : e + len ≤ dst.size) (hle : e ≤ row + x * d.bytes)
    (hlt : row + x * d.bytes + d.bytes ≤ e + len)
    (hfrom : row' + x' * d.bytes = s + (row + x * d.bytes - e)) :
    d.load (src.copySlice s dst e len) row x = d.load src row' x' := by
  have hsize := size_copySlice hs he
  have hbits := (bits_of_not_isPacked hp).1
  apply load_congr
  · rw [firstBit_of_not_isPacked hp, byteIndex_of_not_isPacked hp]
    omega
  · rw [firstBit_of_not_isPacked hp, byteIndex_of_not_isPacked hp]
    omega
  · intro o ho
    rw [bitAt_whole hp, bitAt_whole hp, byteIndex_of_not_isPacked hp,
      byteIndex_of_not_isPacked hp, byteAt_copySlice hs he, if_pos (by omega)]
    congr 3
    omega

end Access

end Depth

end Scanline

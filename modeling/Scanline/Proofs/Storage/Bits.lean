import Scanline.Storage
/-! The bits of some data in one row, from the most significant bit of the first byte on, and what
the operations on bytes do to them. -/

namespace Scanline

/-- Byte `i` of some data; zero past the end. -/
def byteAt (data : ByteArray) (i : Nat) : UInt8 := if h : i < data.size then data[i] else 0

/-- Bit `k` of some data, where the most significant bit of each byte comes first. -/
def bitAt (data : ByteArray) (k : Nat) : Bool := (byteAt data (k / 8)).toNat.testBit (7 - k % 8)

theorem byteAt_of_lt {data : ByteArray} {i : Nat} (h : i < data.size) : byteAt data i = data[i] :=
  dif_pos h

theorem byteAt_of_le {data : ByteArray} {i : Nat} (h : data.size ≤ i) : byteAt data i = 0 :=
  dif_neg (Nat.not_lt.mpr h)

theorem bitAt_add {data : ByteArray} {i o : Nat} (ho : o < 8) :
    bitAt data (8 * i + o) = (byteAt data i).toNat.testBit (7 - o) := by
  have hi : (8 * i + o) / 8 = i := by omega
  have hm : (8 * i + o) % 8 = o := by omega
  rw [bitAt, hi, hm]

theorem testBit_eq_false_of_byte (b : UInt8) {j : Nat} (hj : 8 ≤ j) :
    b.toNat.testBit j = false :=
  Nat.testBit_lt_two_pow (Nat.lt_of_lt_of_le b.toNat_lt (Nat.pow_le_pow_right (by decide) hj))

theorem byteAt_eq_of_bitAt {data data' : ByteArray} {i : Nat}
    (h : ∀ o, o < 8 → bitAt data (8 * i + o) = bitAt data' (8 * i + o)) :
    byteAt data i = byteAt data' i := by
  apply UInt8.toNat_inj.mp
  apply Nat.eq_of_testBit_eq
  intro j
  by_cases hj : j < 8
  · have hbit := h (7 - j) (by omega)
    rw [bitAt_add (by omega), bitAt_add (by omega), show 7 - (7 - j) = j by omega] at hbit
    exact hbit
  · rw [testBit_eq_false_of_byte _ (by omega), testBit_eq_false_of_byte _ (by omega)]

/-- Data is its bits. -/
theorem eq_of_bitAt {data data' : ByteArray} (hsize : data.size = data'.size)
    (h : ∀ k, bitAt data k = bitAt data' k) : data = data' := by
  refine ByteArray.ext (Array.ext hsize fun i hi hi' => ?_)
  have hbyte := byteAt_eq_of_bitAt (i := i) fun o _ => h (8 * i + o)
  rwa [byteAt_of_lt hi, byteAt_of_lt hi'] at hbyte

theorem size_set {data : ByteArray} {i : Nat} {b : UInt8} (h : i < data.size) :
    (data.set i b h).size = data.size := by
  simp only [← ByteArray.size_data, ByteArray.data_set, Array.size_set]

theorem byteAt_set {data : ByteArray} {i : Nat} {b : UInt8} (h : i < data.size) (j : Nat) :
    byteAt (data.set i b h) j = if j = i then b else byteAt data j := by
  by_cases hj : j < data.size
  · rw [byteAt_of_lt (by rwa [size_set]), byteAt_of_lt hj]
    simp only [ByteArray.getElem_eq_getElem_data, ByteArray.data_set, Array.getElem_set,
      eq_comm (a := i)]
  · rw [byteAt_of_le (by rw [size_set]; omega), byteAt_of_le (by omega), if_neg (by omega)]

section CopySlice
variable {src dst : ByteArray} {s d n : Nat}

theorem size_copySlice (hs : s + n ≤ src.size) (hd : d + n ≤ dst.size) :
    (src.copySlice s dst d n).size = dst.size := by
  simp only [ByteArray.copySlice_eq_append, ByteArray.size_append, ByteArray.size_extract,
    ByteArray.size_data]
  omega

theorem byteAt_copySlice (hs : s + n ≤ src.size) (hd : d + n ≤ dst.size) (j : Nat) :
    byteAt (src.copySlice s dst d n) j =
      if d ≤ j ∧ j < d + n then byteAt src (s + (j - d)) else byteAt dst j := by
  by_cases hj : j < dst.size
  · have hj' : j < (src.copySlice s dst d n).size := by rwa [size_copySlice hs hd]
    rw [byteAt_of_lt hj', byteAt_of_lt hj]
    simp only [ByteArray.getElem_eq_getElem_data, ByteArray.copySlice_eq_append,
      ByteArray.data_append, Array.getElem_append, ByteArray.data_extract, Array.getElem_extract,
      Array.size_extract, Array.size_append, ByteArray.size_data]
    by_cases hl : j < d
    · rw [dif_pos (by omega), dif_pos (by omega), if_neg (by omega)]
      simp only [Nat.zero_add]
    by_cases hr : j < d + n
    · rw [dif_pos (by omega), dif_neg (by omega), if_pos (by omega), byteAt_of_lt (by omega),
        ByteArray.getElem_eq_getElem_data]
      congr 1
      omega
    · rw [dif_neg (by omega), if_neg (by omega)]
      congr 1
      omega
  · rw [byteAt_of_le (by rw [size_copySlice hs hd]; omega), if_neg (by omega),
      byteAt_of_le (by omega)]

end CopySlice

end Scanline

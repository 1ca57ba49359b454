import Scanline.Proofs.Pixmap.Runs
/-! Filling. The first row is written pixel by pixel and the others are copies of its packed bytes,
so every pixel shows the value and only the packed bytes of rows have changed. -/

namespace Scanline

theorem exists_slice {data : ByteArray} {i n : Nat} (h : i + n ≤ data.size) :
    ∃ bytes, slice data i n = .ok bytes ∧ bytes.size = n ∧
      ∀ j, j < n → byteAt bytes j = byteAt data (i + j) := by
  have hsize : (data.extract i (i + n)).size = n := by
    rw [ByteArray.size_extract]
    omega
  refine ⟨_, by rw [slice, if_pos h], hsize, ?_⟩
  intro j hj
  rw [byteAt_of_lt (by omega), byteAt_of_lt (by omega), ByteArray.getElem_extract]

namespace Pixmap

/-- What copying bytes to the start of rows makes of the data. -/
structure RowsCopied (stride : Nat) (bytes : ByteArray) (n y : Nat) (before after : ByteArray) :
    Prop where
  size_eq : after.size = before.size
  copied : ∀ r j, y ≤ r → r < y + n → j < bytes.size →
    byteAt after (r * stride + j) = byteAt bytes j
  kept : ∀ i, (∀ r, y ≤ r → r < y + n → i < r * stride ∨ r * stride + bytes.size ≤ i) →
    byteAt after i = byteAt before i

theorem exists_copyRows {stride n y : Nat} {bytes data : ByteArray} (hlen : bytes.size ≤ stride)
    (h : (y + n) * stride ≤ data.size) :
    ∃ data', copyRows stride bytes n y data = .ok data' ∧
      RowsCopied stride bytes n y data data' := by
  induction n generalizing y data with
  | zero => exact ⟨data, rfl, rfl, fun r j _ _ _ => by omega, fun _ _ => rfl⟩
  | succ n ih =>
    have hrow : (y + 1) * stride ≤ (y + (n + 1)) * stride := Nat.mul_le_mul_right _ (by omega)
    rw [Nat.succ_mul] at hrow
    have hfit : y * stride + bytes.size ≤ data.size := by omega
    have hsize := size_copySlice (show 0 + bytes.size ≤ bytes.size by omega) hfit
    obtain ⟨data', hdata, hrest⟩ := ih (y := y + 1)
      (show (y + 1 + n) * stride ≤ (bytes.copySlice 0 data (y * stride) bytes.size).size by
        rw [hsize, Nat.add_assoc, Nat.add_comm 1 n]
        exact h)
    -- Later rows start past this one.
    have hlater : ∀ r, y + 1 ≤ r → y * stride + stride ≤ r * stride := by
      intro r hr
      rw [← Nat.succ_mul]
      exact Nat.mul_le_mul_right _ hr
    refine ⟨data', ?_, hrest.size_eq.trans hsize, ?_, ?_⟩
    · rw [copyRows, overwrite, if_pos hfit]
      exact hdata
    · intro r j hr hr' hj
      rcases Nat.lt_or_eq_of_le hr with hlt | rfl
      · exact hrest.copied r j hlt (by omega) hj
      · rw [hrest.kept _ fun r' hge _ => Or.inl (by have := hlater r' hge; omega),
          byteAt_copySlice (by omega) hfit, if_pos (by omega)]
        congr 1
        omega
    · intro i hi
      rw [hrest.kept i fun r' hge hlt => hi r' (by omega) (by omega),
        byteAt_copySlice (by omega) hfit, if_neg]
      have := hi y (Nat.le_refl y) (by omega)
      omega

/-- The second pixmap is the first with every pixel set. Only packed bytes of rows differ. -/
structure Filled (p q : Pixmap) (v : Pixel) : Prop where
  frame_eq : q.toFrame = p.toFrame
  size_eq : q.data.size = p.data.size
  painted : ∀ c ∈ p.bounds, q.shown c = v &&& p.format.depth.mask
  kept : ∀ i, (∀ y < p.height, i < y * p.stride ∨ y * p.stride + p.rowBytes ≤ i) →
    byteAt q.data i = byteAt p.data i

theorem Filled.valid {p q : Pixmap} {v : Pixel} (h : Filled p q v) (hp : p.Valid) : q.Valid :=
  hp.congr h.frame_eq h.size_eq

/-- What becomes of the data in a fill: the first row is painted, and every row gets the packed bytes of
the first. -/
structure RowsPainted (p : Pixmap) (v : Pixel) (first data : ByteArray) : Prop where
  painted : Repainted p ⟨p.toFrame, first⟩
    {c | c.y = (0 : Nat) ∧ ((0 : Nat) : Int) ≤ c.x ∧ c.x < (0 : Nat) + p.width}
    (fun _ => v &&& p.format.depth.mask)
  size_eq : data.size = first.size
  row_eq : ∀ r j, r < p.height → j < p.rowBytes → byteAt data (r * p.stride + j) = byteAt first j
  kept : ∀ i, (∀ r < p.height, i < r * p.stride ∨ r * p.stride + p.rowBytes ≤ i) →
    byteAt data i = byteAt first i

section Rows
variable {p : Pixmap} (hp : p.Valid) {v : Pixel} {first bytes data : ByteArray}
include hp

theorem Valid.rowsPainted
    (hfirst : Repainted p ⟨p.toFrame, first⟩
      {c | c.y = (0 : Nat) ∧ ((0 : Nat) : Int) ≤ c.x ∧ c.x < (0 : Nat) + p.width}
      (fun _ => v &&& p.format.depth.mask))
    (hsize : bytes.size = p.rowBytes)
    (hbytes : ∀ j, j < p.rowBytes → byteAt bytes j = byteAt first j)
    (hrows : RowsCopied p.stride bytes (p.height - 1) 1 first data) :
    RowsPainted p v first data := by
  have hrow := hp.rowBytes_le
  have hstart : ∀ r, 1 ≤ r → p.stride ≤ r * p.stride := fun r hr =>
    Nat.le_mul_of_pos_left _ hr
  refine ⟨hfirst, hrows.size_eq, ?_, ?_⟩
  · intro r j hr hj
    rcases Nat.eq_zero_or_pos r with rfl | hpos
    · rw [Nat.zero_mul, Nat.zero_add]
      exact hrows.kept j fun r' hr' _ => Or.inl (by have := hstart r' hr'; omega)
    · rw [hrows.copied r j hpos (by omega) (by omega), hbytes j hj]
  · intro i hi
    exact hrows.kept i fun r hr hr' => by rw [hsize]; exact hi r (by omega)

theorem Valid.filled (hh : 0 < p.height) (h : RowsPainted p v first data) :
    Filled p ⟨p.toFrame, data⟩ v := by
  have hrow := hp.rowBytes_le
  refine ⟨rfl, h.size_eq.trans h.painted.size_eq, ?_, ?_⟩
  · intro c hc
    obtain ⟨hx, hx', hy, hy'⟩ := Frame.mem_bounds.mp hc
    have hzero : (⟨c.x, 0⟩ : Point) ∈ p.bounds := Frame.mem_bounds.mpr (by dsimp only; omega)
    have hfit := (h.painted.valid hp).fits hzero
    have hfit' := hp.fits hc
    have hpixel := Frame.pixel_le_rowBytes (f := p.toFrame) (x := c.x.toNat) (by omega)
    rw [← h.painted.painted ⟨c.x, 0⟩ ⟨rfl, hx, by dsimp only; omega⟩ hzero]
    refine Depth.load_congr ?_ hfit fun o (ho : o < p.format.depth.bits) => ?_
    · rw [h.size_eq.trans h.painted.size_eq]
      exact hfit'
    · dsimp only [rowStart, Depth.firstBit, Int.toNat_zero]
      rw [Nat.zero_mul, Nat.mul_zero, Nat.zero_add, bitAt, bitAt,
        show (8 * (c.y.toNat * p.stride) + c.x.toNat * p.format.depth.bits + o) / 8 =
          c.y.toNat * p.stride + (c.x.toNat * p.format.depth.bits + o) / 8 by omega,
        h.row_eq _ _ (by omega) (by omega)]
      congr 2
      omega
  · intro i hi
    have hout := hi 0 hh
    rw [h.kept i hi]
    refine byteAt_eq_of_bitAt fun o ho => h.painted.kept _ ?_
    rintro c ⟨hy, -, -⟩ ⟨hin, -, hlt⟩
    have hpixel := Frame.pixel_le_rowBytes (f := p.toFrame) (x := c.x.toNat)
      (by have := Frame.mem_bounds.mp hin; omega)
    simp only [Frame.firstBit, Depth.firstBit, hy, Int.toNat_natCast, Nat.zero_mul] at hlt hout
    omega

omit hp in
/-- The bits that the packed bytes of a row have beyond its pixels come from the first row. -/
theorem RowsPainted.spare (h : RowsPainted p v first data) {y k : Nat} (hy : y < p.height)
    (hk : p.width * p.format.depth.bits ≤ k) (hk' : k < 8 * p.rowBytes) :
    bitAt data (8 * (y * p.stride) + k) = bitAt p.data k := by
  have hfirst : bitAt first k = bitAt p.data k := by
    refine h.painted.kept k ?_
    rintro c ⟨hcy, -, -⟩ ⟨hin, -, hlt⟩
    have hx := Frame.mem_bounds.mp hin
    have hmul : (c.x.toNat + 1) * p.format.depth.bits ≤ p.width * p.format.depth.bits :=
      Nat.mul_le_mul_right _ (by omega)
    rw [Nat.succ_mul] at hmul
    simp only [Frame.firstBit, Depth.firstBit, hcy, Int.toNat_natCast, Nat.zero_mul] at hlt
    omega
  rw [← hfirst, bitAt, bitAt, show (8 * (y * p.stride) + k) / 8 = y * p.stride + k / 8 by omega,
    h.row_eq y _ hy (by omega), show (8 * (y * p.stride) + k) % 8 = k % 8 by omega]

theorem Valid.exists_rowsPainted (hw : 0 < p.width) (hh : 0 < p.height) (v : Pixel) :
    ∃ first data, p.fill v = .ok ⟨p.toFrame, data⟩ ∧ RowsPainted p v first data := by
  have hone : (1 + (p.height - 1)) * p.stride ≤ p.data.size := by
    rw [Nat.add_sub_cancel' hh, Nat.mul_comm]
    exact hp.size_le
  have hstride : p.stride ≤ (1 + (p.height - 1)) * p.stride := Nat.le_mul_of_pos_left _ (by omega)
  have hrow := hp.rowBytes_le
  obtain ⟨first, hf, hfirst⟩ := hp.writeRun (v := v) (n := p.width) (x := 0) (y := 0) hh (by omega)
  have hsize : first.size = p.data.size := hfirst.size_eq
  obtain ⟨bytes, hb, hbsize, hbytes⟩ := exists_slice (show 0 + p.rowBytes ≤ first.size by omega)
  obtain ⟨data, hd, hrows⟩ := exists_copyRows (show bytes.size ≤ p.stride by omega)
    (show (1 + (p.height - 1)) * p.stride ≤ first.size by omega)
  rw [Nat.zero_mul] at hf
  refine ⟨first, data, ?_, hp.rowsPainted hfirst hbsize
    (fun j hj => by rw [hbytes j hj, Nat.zero_add]) hrows⟩
  rw [Pixmap.fill, if_neg (show ¬(p.width = 0 ∨ p.height = 0) by omega)]
  rcases p with ⟨frame, before⟩
  simp only [hf, hb, hd]

end Rows

theorem fill_of_no_pixels {p : Pixmap} (h : p.width = 0 ∨ p.height = 0) (v : Pixel) :
    p.fill v = .ok p := by
  rw [Pixmap.fill, if_pos h]

theorem Valid.fill {p : Pixmap} (hp : p.Valid) (v : Pixel) :
    ∃ q, p.fill v = .ok q ∧ Filled p q v := by
  by_cases hnone : p.width = 0 ∨ p.height = 0
  · refine ⟨p, fill_of_no_pixels hnone v, rfl, rfl, ?_, fun _ _ => rfl⟩
    intro c hc
    have := Frame.mem_bounds.mp hc
    omega
  · obtain ⟨first, data, hdata, h⟩ := hp.exists_rowsPainted (by omega) (by omega) v
    exact ⟨_, hdata, hp.filled (by omega) h⟩

theorem Valid.fill_spare {p q : Pixmap} (hp : p.Valid) {v : Pixel} (hq : p.fill v = .ok q)
    {y k : Nat} (hy : y < p.height) (hk : p.width * p.format.depth.bits ≤ k)
    (hk' : k < 8 * p.rowBytes) : bitAt q.data (8 * (y * p.stride) + k) = bitAt p.data k := by
  have hw : 0 < p.width := by
    by_contra hzero
    rw [Frame.rowBytes, Depth.rowBytes, Nat.eq_zero_of_not_pos hzero, Nat.zero_mul] at hk'
    omega
  obtain ⟨first, data, hdata, h⟩ := hp.exists_rowsPainted hw (Nat.zero_lt_of_lt hy) v
  rw [← Except.ok.inj (hdata.symm.trans hq)]
  exact h.spare hy hk hk'

/-- Filling never fails. Every pixel shows the value, inside the clip or not; bytes that are not in a
packed row are as before, and what a packed row has beyond its pixels comes from the first row. Without
pixels there is nothing to do. -/
theorem fill_exact {p : Pixmap} (hp : p.Valid) (v : Pixel) :
    ∃ q, p.fill v = .ok q ∧ q.toFrame = p.toFrame ∧ q.data.size = p.data.size ∧
      (∀ c ∈ p.bounds, q.get c = .ok (v &&& p.format.depth.mask)) ∧
      (∀ i, (∀ y < p.height, i < y * p.stride ∨ y * p.stride + p.rowBytes ≤ i) →
        byteAt q.data i = byteAt p.data i) ∧
      (∀ y < p.height, ∀ k, p.width * p.format.depth.bits ≤ k → k < 8 * p.rowBytes →
        bitAt q.data (8 * (y * p.stride) + k) = bitAt p.data k) ∧
      (p.width = 0 ∨ p.height = 0 → q = p) := by
  obtain ⟨q, hq, h⟩ := hp.fill v
  refine ⟨q, hq, h.frame_eq, h.size_eq, ?_, h.kept, ?_, ?_⟩
  · intro c hc
    rw [(h.valid hp).get_eq (by rw [h.frame_eq]; exact hc), h.painted c hc]
  · exact fun y hy k hk hk' => hp.fill_spare hq hy hk hk'
  · intro hnone
    exact Except.ok.inj (hq.symm.trans (fill_of_no_pixels hnone v))

/-- Three pixels of two bits leave two bits of a byte; the clip has two of the three columns. -/
theorem fill_exact_sample :
    ∃ q, sample.fill 6 = .ok q ∧ q.get ⟨2, 1⟩ = .ok 2 ∧ byteAt q.data 1 = 0xff ∧
      byteAt q.data 4 = 0x55 ∧ bitAt q.data 22 = bitAt sample.data 6 := by
  obtain ⟨q, hq, -, -, hget, hkept, hspare, -⟩ := fill_exact sample_valid 6
  exact ⟨q, hq, hget ⟨2, 1⟩ (by decide), hkept 1 (by decide), hkept 4 (by decide),
    hspare 1 (by decide) 6 (by decide) (by decide)⟩

end Pixmap

end Scanline

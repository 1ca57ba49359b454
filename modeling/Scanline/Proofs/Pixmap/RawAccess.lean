import Scanline.Proofs.Pixmap.Reachable
/-! Raw access. The pixels of a valid pixmap are independent cells: a write sets the bits of its own
cell, which hold the value as far as the depth keeps it, and no others, so that writes to different
cells commute. Outside the buffer there are no cells, and access is refused. -/

namespace Scanline

namespace Depth.Stored
variable {d : Depth} {row x row' x' : Nat} {v v' : Pixel} {before after : ByteArray}

theorem bitAt_eq (h : d.Stored row x v before after) (k : Nat) : bitAt after k =
    if d.firstBit row x ≤ k ∧ k < d.firstBit row x + d.bits then
      v.toNat.testBit (d.place (k - d.firstBit row x))
    else bitAt before k := by
  split
  · rename_i hin
    rw [← h.inside _ (by omega), Nat.add_sub_cancel' hin.1]
  · exact h.outside k (by omega)

/-- Writes to pixels that share no bit commute. -/
theorem comm {after' both both' : ByteArray} (h : d.Stored row x v before after)
    (h₂ : d.Stored row' x' v' after both) (h' : d.Stored row' x' v' before after')
    (h₂' : d.Stored row x v after' both')
    (hapart : ∀ k, d.firstBit row x ≤ k ∧ k < d.firstBit row x + d.bits →
      ¬(d.firstBit row' x' ≤ k ∧ k < d.firstBit row' x' + d.bits)) : both = both' := by
  refine eq_of_bitAt ?_ fun k => ?_
  · rw [h₂.size_eq, h.size_eq, h₂'.size_eq, h'.size_eq]
  · rw [h₂.bitAt_eq, h.bitAt_eq, h₂'.bitAt_eq, h'.bitAt_eq]
    by_cases hin : d.firstBit row x ≤ k ∧ k < d.firstBit row x + d.bits
    · rw [if_neg (hapart k hin), if_pos hin, if_pos hin]
    · rw [if_neg hin, if_neg hin]

/-- Small pixels lie in their row from the most significant bit on. -/
theorem bitAt_packed (h : d.Stored row x v before after) (hp : d.isPacked = true) {o : Nat}
    (ho : o < d.bits) :
    bitAt after (8 * row + x * d.bits + o) = v.toNat.testBit (d.bits - 1 - o) := by
  rw [← place_of_isPacked hp ho]
  exact h.inside o ho

/-- Large pixels are words with the least significant byte first. -/
theorem byteAt_whole (h : d.Stored row x v before after) (hp : d.isPacked = false) {j : Nat}
    (hj : j < d.bytes) :
    (byteAt after (row + x * d.bytes + j)).toNat = v.toNat >>> (8 * j) % 256 := by
  have hbits := (bits_of_not_isPacked hp).1
  apply Nat.eq_of_testBit_eq
  intro t
  rw [show 256 = 2 ^ 8 from rfl, Nat.testBit_mod_two_pow, Nat.testBit_shiftRight]
  by_cases ht : t < 8
  · have hbit := h.inside (8 * j + (7 - t)) (by omega)
    rw [bitAt_whole hp, byteIndex_of_not_isPacked hp, place_of_not_isPacked hp,
      show (8 * j + (7 - t)) / 8 = j by omega, show 7 - (8 * j + (7 - t)) % 8 = t by omega] at hbit
    rw [hbit, decide_eq_true ht, Bool.true_and]
  · rw [testBit_eq_false_of_byte _ (by omega), decide_eq_false ht, Bool.false_and]

theorem byteAt_outside (h : d.Stored row x v before after) (hp : d.isPacked = false) {i : Nat}
    (hi : i < row + x * d.bytes ∨ row + x * d.bytes + d.bytes ≤ i) :
    byteAt after i = byteAt before i := by
  have hbits := (bits_of_not_isPacked hp).1
  refine byteAt_eq_of_bitAt fun o ho => h.outside _ ?_
  rw [firstBit_of_not_isPacked hp, byteIndex_of_not_isPacked hp]
  omega

end Depth.Stored

namespace Pixmap

/-- The second pixmap is the first with the cell of one pixel set. -/
structure CellSet (p : Pixmap) (x y : Nat) (v : Pixel) (q : Pixmap) : Prop where
  frame_eq : q.toFrame = p.toFrame
  size_eq : q.data.size = p.data.size
  getRaw_self : q.getRaw x y = .ok (v &&& p.format.depth.mask)
  getRaw_other : ∀ x' y', x' < p.width → y' < p.height → (x', y') ≠ (x, y) →
    q.getRaw x' y' = p.getRaw x' y'
  packed : p.format.depth.isPacked = true → ∀ o < p.format.depth.bits,
    bitAt q.data (8 * p.rowStart y + x * p.format.depth.bits + o) =
      v.toNat.testBit (p.format.depth.bits - 1 - o)
  packed_kept : p.format.depth.isPacked = true → ∀ k,
    k < 8 * p.rowStart y + x * p.format.depth.bits ∨
      8 * p.rowStart y + x * p.format.depth.bits + p.format.depth.bits ≤ k →
    bitAt q.data k = bitAt p.data k
  whole : p.format.depth.isPacked = false → ∀ j < p.format.depth.bytes,
    (byteAt q.data (p.rowStart y + x * p.format.depth.bytes + j)).toNat =
      v.toNat >>> (8 * j) % 256
  whole_kept : p.format.depth.isPacked = false → ∀ i,
    i < p.rowStart y + x * p.format.depth.bytes ∨
      p.rowStart y + x * p.format.depth.bytes + p.format.depth.bytes ≤ i →
    byteAt q.data i = byteAt p.data i

section Cells
variable {p : Pixmap} (hp : p.Valid) {x y x' y' : Nat} {v v' : Pixel}
include hp

theorem Valid.putRaw_stored (hx : x < p.width) (hy : y < p.height) (v : Pixel) :
    ∃ data, p.putRaw x y v = .ok ⟨p.toFrame, data⟩ ∧
      p.format.depth.Stored (p.rowStart y) x v p.data data := by
  obtain ⟨data, hdata, h⟩ := Depth.exists_write (v := v) (hp.fits (Frame.mem_bounds_of_lt hx hy))
  refine ⟨data, ?_, h⟩
  rcases p with ⟨frame, before⟩
  simp only [Int.toNat_natCast] at hdata
  simp only [Pixmap.putRaw, checkInside, Pixmap.write, hdata, if_pos (And.intro hx hy)]
  rfl

/-- The pixels of two places share no bit. -/
theorem Valid.cells_apart (hx : x < p.width) (hy : y < p.height) (hx' : x' < p.width)
    (hy' : y' < p.height) (hne : (x', y') ≠ (x, y)) (k : Nat)
    (hk : p.format.depth.firstBit (p.rowStart y) x ≤ k ∧
      k < p.format.depth.firstBit (p.rowStart y) x + p.format.depth.bits) :
    ¬(p.format.depth.firstBit (p.rowStart y') x' ≤ k ∧
      k < p.format.depth.firstBit (p.rowStart y') x' + p.format.depth.bits) := by
  intro hk'
  have howns : p.Owns ⟨x, y⟩ k := ⟨Frame.mem_bounds_of_lt hx hy, hk.1, hk.2⟩
  have howns' : p.Owns ⟨x', y'⟩ k := ⟨Frame.mem_bounds_of_lt hx' hy', hk'.1, hk'.2⟩
  have heq := hp.owns_unique howns howns'
  simp only [Point.mk.injEq, Int.natCast_inj] at heq
  exact hne (by rw [heq.1, heq.2])

theorem Valid.cellSet (hx : x < p.width) (hy : y < p.height) {data : ByteArray}
    (h : p.format.depth.Stored (p.rowStart y) x v p.data data) :
    CellSet p x y v ⟨p.toFrame, data⟩ := by
  have hc : (⟨x, y⟩ : Point) ∈ p.bounds := Frame.mem_bounds_of_lt hx hy
  have hpainted := hp.repainted_of_stored hc h (fun _ => v &&& p.format.depth.mask) rfl
  have hq := hpainted.valid hp
  refine ⟨rfl, h.size_eq, ?_, ?_, fun hpack _ => h.bitAt_packed hpack, fun _ => h.outside,
    fun hpack _ => h.byteAt_whole hpack, fun hpack _ => h.byteAt_outside hpack⟩
  · rw [← hpainted.painted _ rfl hc]
    exact hq.getRaw_eq hc
  · intro x' y' hx' hy' hne
    have hc' : (⟨x', y'⟩ : Point) ∈ p.bounds := Frame.mem_bounds_of_lt hx' hy'
    have hother := hpainted.shown_of_not_mem hp hc' (by
      rw [Set.mem_singleton_iff, Point.mk.injEq, Int.natCast_inj, Int.natCast_inj]
      exact fun heq => hne (by rw [heq.1, heq.2]))
    have hbefore := hp.getRaw_eq hc'
    rw [← hother] at hbefore
    exact (hq.getRaw_eq hc').trans hbefore.symm

theorem Valid.putRaw_comm (hx : x < p.width) (hy : y < p.height) (hx' : x' < p.width)
    (hy' : y' < p.height) (hne : (x', y') ≠ (x, y)) :
    ∃ q, (p.putRaw x y v >>= (·.putRaw x' y' v')) = .ok q ∧
      (p.putRaw x' y' v' >>= (·.putRaw x y v)) = .ok q := by
  obtain ⟨first, hfirst, h⟩ := hp.putRaw_stored hx hy v
  obtain ⟨first', hfirst', h'⟩ := hp.putRaw_stored hx' hy' v'
  obtain ⟨both, hboth, h₂⟩ := (hp.congr rfl h.size_eq : Valid ⟨p.toFrame, first⟩).putRaw_stored
    hx' hy' v'
  obtain ⟨both', hboth', h₂'⟩ := (hp.congr rfl h'.size_eq : Valid ⟨p.toFrame, first'⟩).putRaw_stored
    hx hy v
  refine ⟨⟨p.toFrame, both⟩, ?_, ?_⟩
  · rw [hfirst]
    exact hboth
  · rw [hfirst', Depth.Stored.comm h h₂ h' h₂' (hp.cells_apart hx hy hx' hy' hne)]
    exact hboth'

omit hp in
theorem getRaw_outside (h : ¬(x < p.width ∧ y < p.height)) :
    p.getRaw x y = .error (.misuse (.pixelOutside x y p.width p.height)) := by
  rw [getRaw, checkInside, if_neg h]
  rfl

omit hp in
theorem putRaw_outside (h : ¬(x < p.width ∧ y < p.height)) :
    p.putRaw x y v = .error (.misuse (.pixelOutside x y p.width p.height)) := by
  rw [Pixmap.putRaw, checkInside, if_neg h]
  rfl

end Cells

/-- A raw write inside the buffer succeeds and sets one cell. Writes to different cells commute, and
outside the buffer raw access is refused and nothing changes. -/
theorem putRaw_exact {p : Pixmap} (hp : p.Valid) (x y : Nat) (v : Pixel) :
    (x < p.width → y < p.height → ∃ q, p.putRaw x y v = .ok q ∧ CellSet p x y v q) ∧
    (x < p.width → y < p.height → ∀ x' y' v', x' < p.width → y' < p.height → (x', y') ≠ (x, y) →
      ∃ q, (p.putRaw x y v >>= (·.putRaw x' y' v')) = .ok q ∧
        (p.putRaw x' y' v' >>= (·.putRaw x y v)) = .ok q) ∧
    (¬(x < p.width ∧ y < p.height) →
      p.getRaw x y = .error (.misuse (.pixelOutside x y p.width p.height)) ∧
      p.putRaw x y v = .error (.misuse (.pixelOutside x y p.width p.height)) ∧
      p.edited (.putRaw x y v) = p) := by
  refine ⟨fun hx hy => ?_, fun hx hy x' y' v' hx' hy' => hp.putRaw_comm hx hy hx' hy',
    fun h => ⟨getRaw_outside h, putRaw_outside h, ?_⟩⟩
  · obtain ⟨data, hdata, h⟩ := hp.putRaw_stored hx hy v
    exact ⟨_, hdata, hp.cellSet hx hy h⟩
  · exact edited_putRaw_of_error (putRaw_outside h)

theorem putRaw_exact_sample :
    ∃ q, sample.putRaw 2 0 0xd = .ok q ∧ q.getRaw 2 0 = .ok 1 ∧ q.getRaw 1 0 = sample.getRaw 1 0 ∧
      bitAt q.data 6 = bitAt sample.data 6 := by
  obtain ⟨q, hq, h⟩ := (putRaw_exact sample_valid 2 0 0xd).1 (by decide) (by decide)
  exact ⟨q, hq, h.getRaw_self, h.getRaw_other 1 0 (by decide) (by decide) (by decide),
    h.packed_kept (by decide) 6 (by decide)⟩

end Pixmap

end Scanline

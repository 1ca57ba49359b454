import Mathlib.Data.Set.Insert
import Scanline.Pixmap
import Scanline.Proofs.Box.Membership
import Scanline.Proofs.Storage.Codec
/-! The pixels of a pixmap as cells of its data. In a valid pixmap every point of the buffer owns
bits of its own, so a pixmap that was painted on is known from the points that were painted and
the values that they show: no other bit of the data has changed. -/

namespace Scanline

namespace Frame

theorem mem_bounds {f : Frame} {c : Point} :
    c ∈ f.bounds ↔ 0 ≤ c.x ∧ c.x < f.width ∧ 0 ≤ c.y ∧ c.y < f.height := by
  rw [bounds, Box.mem_ofSize]
  omega

theorem mem_bounds_of_lt {f : Frame} {x y : Nat} (hx : x < f.width) (hy : y < f.height) :
    (⟨x, y⟩ : Point) ∈ f.bounds :=
  mem_bounds.mpr (by dsimp only; omega)

theorem onScreen_of_mem {f : Frame} (hw : (f.width : Int) ≤ coordMax)
    (hh : (f.height : Int) ≤ coordMax) {c : Point} (hc : c ∈ f.bounds) : c.OnScreen := by
  obtain ⟨hx, hx', hy, hy'⟩ := mem_bounds.mp hc
  exact ⟨hx, Int.lt_of_lt_of_le hx' hw, hy, Int.lt_of_lt_of_le hy' hh⟩

theorem pixel_le_rowBytes {f : Frame} {x : Nat} (hx : x < f.width) :
    x * f.format.depth.bits + f.format.depth.bits ≤ 8 * f.rowBytes := by
  have hmul : (x + 1) * f.format.depth.bits ≤ f.width * f.format.depth.bits :=
    Nat.mul_le_mul_right _ hx
  rw [Nat.add_mul, Nat.one_mul] at hmul
  simp only [rowBytes, Depth.rowBytes]
  omega

/-- The first bit of the data that belongs to a point. -/
def firstBit (f : Frame) (c : Point) : Nat :=
  f.format.depth.firstBit (c.y.toNat * f.stride) c.x.toNat

/-- Bit `k` of the data belongs to the pixel at a point of the buffer. -/
structure Owns (f : Frame) (c : Point) (k : Nat) : Prop where
  mem : c ∈ f.bounds
  le : f.firstBit c ≤ k
  lt : k < f.firstBit c + f.format.depth.bits

end Frame

namespace Pixmap

/-- The sides are coordinates, a row holds its pixels, and the data holds all rows. -/
structure Valid (p : Pixmap) : Prop where
  width_le : (p.width : Int) ≤ coordMax
  height_le : (p.height : Int) ≤ coordMax
  rowBytes_le : p.rowBytes ≤ p.stride
  size_lt : p.stride * p.height < addressSpace
  size_le : p.stride * p.height ≤ p.data.size

/-- Being valid is a matter of the frame and the length of the data. -/
theorem Valid.congr {p q : Pixmap} (hp : p.Valid) (hframe : q.toFrame = p.toFrame)
    (hsize : q.data.size = p.data.size) : q.Valid := by
  obtain ⟨hw, hh, hr, hlt, hle⟩ := hp
  rw [← hframe] at hw hh hr hlt hle
  exact ⟨hw, hh, hr, hlt, by rw [hsize]; exact hle⟩

/-- Two rows of three small pixels, with a byte of padding in each row and one after them. -/
def sample : Pixmap :=
  ⟨⟨3, 2, 2, 1, Format.g2, some ⟨0, 0, 2, 2⟩, ⟨true, false, false⟩⟩, ⟨#[0x1b, 0xff, 0xe4, 0, 0x55]⟩⟩

theorem sample_valid : sample.Valid :=
  ⟨by decide, by decide, by decide, by decide, by decide⟩

/-- Two rows of two pixels of whole bytes. -/
def sample16 : Pixmap :=
  ⟨⟨2, 2, 4, 1, Format.rgb565, none, ⟨false, false, true⟩⟩, ⟨#[1, 2, 3, 4, 5, 6, 7, 8]⟩⟩

theorem sample16_valid : sample16.Valid :=
  ⟨by decide, by decide, by decide, by decide, by decide⟩

/-- The pixel at a point of the buffer, as its bits have it. -/
def shown (p : Pixmap) (c : Point) : Pixel :=
  p.format.depth.load p.data (p.rowStart c.y.toNat) c.x.toNat

/-- Blocks of one length that start at its multiples are equal or apart. -/
theorem eq_of_overlap {a b n k : Nat} (h : a * n ≤ k) (h' : k < a * n + n) (g : b * n ≤ k)
    (g' : k < b * n + n) : a = b := by
  rcases Nat.lt_trichotomy a b with hlt | heq | hlt
  · have hle := Nat.mul_le_mul_right n hlt
    rw [Nat.succ_mul] at hle
    omega
  · exact heq
  · have hle := Nat.mul_le_mul_right n hlt
    rw [Nat.succ_mul] at hle
    omega

section Layout
variable {p : Pixmap} (hp : p.Valid) {c c' : Point}
include hp

theorem Valid.onScreen (hc : c ∈ p.bounds) : c.OnScreen :=
  Frame.onScreen_of_mem hp.width_le hp.height_le hc

theorem Valid.row_fits (hc : c ∈ p.bounds) :
    c.x.toNat * p.format.depth.bits + p.format.depth.bits ≤ 8 * p.stride := by
  obtain ⟨hx, hx', -, -⟩ := Frame.mem_bounds.mp hc
  have hrow := hp.rowBytes_le
  have hpixel := Frame.pixel_le_rowBytes (f := p.toFrame) (x := c.x.toNat) (by omega)
  omega

theorem Valid.row_end_le {y : Nat} (hy : y < p.height) :
    p.rowStart y + p.stride ≤ p.data.size := by
  have hsize := hp.size_le
  have hmul := Nat.mul_le_mul_right p.stride hy
  rw [Nat.succ_mul, Nat.mul_comm p.height] at hmul
  rw [rowStart]
  omega

theorem Valid.fits (hc : c ∈ p.bounds) :
    p.firstBit c + p.format.depth.bits ≤ 8 * p.data.size := by
  obtain ⟨-, -, hy, hy'⟩ := Frame.mem_bounds.mp hc
  have hrow := hp.row_fits hc
  have hend := hp.row_end_le (y := c.y.toNat) (by omega)
  rw [rowStart] at hend
  simp only [Frame.firstBit, Depth.firstBit]
  omega

theorem Valid.owns_unique {k : Nat} (h : p.Owns c k) (h' : p.Owns c' k) : c = c' := by
  have hrow := hp.row_fits h.mem
  have hrow' := hp.row_fits h'.mem
  obtain ⟨hm, hl, hu⟩ := h
  obtain ⟨hm', hl', hu'⟩ := h'
  simp only [Frame.firstBit, Depth.firstBit] at hl hu hl' hu'
  obtain ⟨hx, -, hy, -⟩ := Frame.mem_bounds.mp hm
  obtain ⟨hx', -, hy', -⟩ := Frame.mem_bounds.mp hm'
  -- No row reaches into the next one, so both points are in one row, and then in one column.
  have hyeq : c.y.toNat = c'.y.toNat :=
    eq_of_overlap (n := p.stride) (k := k / 8) (by omega) (by omega) (by omega) (by omega)
  rw [hyeq] at hl hu
  have hxeq : c.x.toNat = c'.x.toNat :=
    eq_of_overlap (n := p.format.depth.bits) (k := k - 8 * (c'.y.toNat * p.stride))
      (by omega) (by omega) (by omega) (by omega)
  rcases c with ⟨x, y⟩
  rcases c' with ⟨x', y'⟩
  simp only [Point.mk.injEq] at *
  omega

theorem Valid.read_eq (hc : c ∈ p.bounds) :
    p.read c.x.toNat c.y.toNat = .ok (p.shown c) :=
  Depth.read_eq_load (hp.fits hc)

theorem Valid.get_eq (hc : c ∈ p.bounds) : p.get c = .ok (p.shown c) := by
  rw [get, if_pos hc, hp.read_eq hc]

theorem Valid.shown_and_mask (hc : c ∈ p.bounds) :
    p.shown c &&& p.format.depth.mask = p.shown c :=
  Depth.load_and_mask (hp.fits hc)

omit hp in
theorem checkInside_eq (hc : c ∈ p.bounds) : p.checkInside c.x.toNat c.y.toNat = .ok () := by
  obtain ⟨hx, hx', hy, hy'⟩ := Frame.mem_bounds.mp hc
  rw [checkInside, if_pos (by omega)]

theorem Valid.getRaw_eq (hc : c ∈ p.bounds) :
    p.getRaw c.x.toNat c.y.toNat = .ok (p.shown c) := by
  rw [getRaw, checkInside_eq hc, ← hp.read_eq hc]
  rfl

end Layout

/-- The second pixmap is the first with the points of `W` painted: each shows its value, and no
bit of another point or of no point has changed. -/
structure Repainted (p q : Pixmap) (W : Set Point) (val : Point → Pixel) : Prop where
  frame_eq : q.toFrame = p.toFrame
  size_eq : q.data.size = p.data.size
  painted : ∀ c ∈ W, c ∈ p.bounds → q.shown c = val c
  kept : ∀ k, (∀ c ∈ W, ¬p.Owns c k) → bitAt q.data k = bitAt p.data k

namespace Repainted
variable {p q r : Pixmap} {W W' : Set Point} {val : Point → Pixel}

theorem refl (p : Pixmap) (val : Point → Pixel) : Repainted p p ∅ val :=
  ⟨rfl, rfl, fun _ hc => absurd hc (Set.notMem_empty _), fun _ _ => rfl⟩

theorem of_forall_notMem (hW : ∀ c, c ∉ W) : Repainted p p W val := by
  rw [Set.eq_empty_of_forall_notMem hW]
  exact refl p val

theorem valid (h : Repainted p q W val) (hp : p.Valid) : q.Valid :=
  hp.congr h.frame_eq h.size_eq

theorem shown_of_not_mem (h : Repainted p q W val) (hp : p.Valid) {c : Point}
    (hc : c ∈ p.bounds) (hW : c ∉ W) : q.shown c = p.shown c := by
  have hq := h.valid hp
  have hfit := hq.fits (c := c) (by rw [h.frame_eq]; exact hc)
  simp only [shown, rowStart, Frame.firstBit, h.frame_eq] at hfit ⊢
  refine Depth.load_congr hfit (hp.fits hc) fun o ho => h.kept _ ?_
  intro c' hc' howns
  have heq := hp.owns_unique howns ⟨hc, Nat.le_add_right _ _, Nat.add_lt_add_left ho _⟩
  exact hW (heq ▸ hc')

theorem trans (h : Repainted p q W val) (hp : p.Valid) (h' : Repainted q r W' val) :
    Repainted p r (W ∪ W') val := by
  refine ⟨h'.frame_eq.trans h.frame_eq, h'.size_eq.trans h.size_eq, ?_, ?_⟩
  · intro c hc hin
    have hin' : c ∈ q.bounds := by rw [h.frame_eq]; exact hin
    by_cases hW' : c ∈ W'
    · exact h'.painted c hW' hin'
    · rw [h'.shown_of_not_mem (h.valid hp) hin' hW']
      exact h.painted c (hc.resolve_right hW') hin
  · intro k hk
    rw [h'.kept k fun c hc => by rw [h.frame_eq]; exact hk c (Or.inr hc)]
    exact h.kept k fun c hc => hk c (Or.inl hc)

theorem congr (h : Repainted p q W val) {val' : Point → Pixel}
    (hW : ∀ c ∈ p.bounds, c ∈ W ↔ c ∈ W') (hval : ∀ c ∈ p.bounds, c ∈ W → val c = val' c) :
    Repainted p q W' val' := by
  refine ⟨h.frame_eq, h.size_eq, ?_, ?_⟩
  · intro c hc hin
    have hcW := (hW c hin).mpr hc
    rw [h.painted c hcW hin, hval c hin hcW]
  · exact fun k hk => h.kept k fun c hc howns => hk c ((hW c howns.mem).mp hc) howns

theorem get_painted (h : Repainted p q W val) (hp : p.Valid) {c : Point} (hc : c ∈ W)
    (hin : c ∈ p.bounds) : q.get c = .ok (val c) := by
  rw [(h.valid hp).get_eq (by rw [h.frame_eq]; exact hin), h.painted c hc hin]

theorem get_of_not_mem (h : Repainted p q W val) (hp : p.Valid) {c : Point} (hc : c ∉ W) :
    q.get c = p.get c := by
  by_cases hin : c ∈ p.bounds
  · rw [(h.valid hp).get_eq (by rw [h.frame_eq]; exact hin), hp.get_eq hin,
      h.shown_of_not_mem hp hin hc]
  · rw [Pixmap.get, Pixmap.get, if_neg (by rw [h.frame_eq]; exact hin), if_neg hin]

/-- What was painted and where determines the outcome. -/
theorem unique (h : Repainted p q W val) (hp : p.Valid) (h' : Repainted p r W val) : q = r := by
  have hdata : q.data = r.data := by
    refine eq_of_bitAt (h.size_eq.trans h'.size_eq.symm) fun k => ?_
    by_cases hk : ∃ c ∈ W, p.Owns c k
    · obtain ⟨c, hc, hin, hle, hlt⟩ := hk
      obtain ⟨o, rfl⟩ := Nat.exists_eq_add_of_le hle
      have hq := (h.valid hp).fits (c := c) (by rw [h.frame_eq]; exact hin)
      have hr := (h'.valid hp).fits (c := c) (by rw [h'.frame_eq]; exact hin)
      have hshown := (h.painted c hc hin).trans (h'.painted c hc hin).symm
      simp only [shown, rowStart, Frame.firstBit, h.frame_eq, h'.frame_eq] at hq hr hshown hlt ⊢
      rw [Depth.bitAt_eq_testBit_load hq (by omega), hshown,
        ← Depth.bitAt_eq_testBit_load hr (by omega)]
    · have hnone : ∀ c ∈ W, ¬p.Owns c k := fun c hc howns => hk ⟨c, hc, howns⟩
      rw [h.kept k hnone, h'.kept k hnone]
  rcases q with ⟨frame, data⟩
  rcases r with ⟨frame', data'⟩
  rw [show frame = frame' from h.frame_eq.trans h'.frame_eq.symm, show data = data' from hdata]

end Repainted

section Write
variable {p : Pixmap} (hp : p.Valid)
include hp

theorem Valid.repainted_of_stored {c : Point} (hc : c ∈ p.bounds) {v : Pixel} {data : ByteArray}
    (h : p.format.depth.Stored (c.y.toNat * p.stride) c.x.toNat v p.data data)
    (val : Point → Pixel) (hval : val c = v &&& p.format.depth.mask) :
    Repainted p ⟨p.toFrame, data⟩ {c} val := by
  refine ⟨rfl, h.size_eq, ?_, ?_⟩
  · intro c' hc' _
    rw [Set.mem_singleton_iff.mp hc', hval]
    exact Depth.load_eq_of_bitAt (by rw [h.size_eq]; exact hp.fits hc) h.inside
  · intro k hk
    apply h.outside
    by_contra hin
    exact hk c (Set.mem_singleton c) ⟨hc, by simp only [Frame.firstBit]; omega,
      by simp only [Frame.firstBit]; omega⟩

theorem Valid.write_data {c : Point} (hc : c ∈ p.bounds) {v : Pixel} (val : Point → Pixel)
    (hval : val c = v &&& p.format.depth.mask) :
    ∃ data, p.format.depth.write p.data (c.y.toNat * p.stride) c.x.toNat v = .ok data ∧
      Repainted p ⟨p.toFrame, data⟩ {c} val := by
  obtain ⟨data, hdata, hstored⟩ := Depth.exists_write (v := v) (hp.fits hc)
  exact ⟨data, hdata, hp.repainted_of_stored hc hstored val hval⟩

theorem Valid.write {c : Point} (hc : c ∈ p.bounds) {v : Pixel} (val : Point → Pixel)
    (hval : val c = v &&& p.format.depth.mask) :
    ∃ q, p.write c.x.toNat c.y.toNat v = .ok q ∧ Repainted p q {c} val := by
  obtain ⟨data, hdata, h⟩ := hp.write_data hc val hval
  refine ⟨⟨p.toFrame, data⟩, ?_, h⟩
  rcases p with ⟨frame, before⟩
  simp only [Pixmap.write, hdata]

theorem Valid.putRaw {c : Point} (hc : c ∈ p.bounds) {v : Pixel} (val : Point → Pixel)
    (hval : val c = v &&& p.format.depth.mask) :
    ∃ q, p.putRaw c.x.toNat c.y.toNat v = .ok q ∧ Repainted p q {c} val := by
  obtain ⟨q, hq, h⟩ := hp.write hc val hval
  exact ⟨q, by rw [Pixmap.putRaw, checkInside_eq hc, ← hq]; rfl, h⟩

end Write

end Pixmap

end Scanline

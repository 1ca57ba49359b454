import Scanline.Blit.Basic
import Scanline.Proofs.Blit.Window
import Scanline.Proofs.Pixmap.Cells
/-! Copying rows of pixels, by bytes or one by one. Either way the pixels of the destination
repaint themselves with those of the source at a fixed offset. -/

namespace Scanline

namespace Pixmap
variable {src dst : Pixmap} (hs : src.Valid) (hd : dst.Valid) {o : Point}
  {w n sx sy dx dy : Nat}

section Bytes

theorem Valid.bytes_fit {p : Pixmap} (hp : p.Valid) (hpack : p.format.depth.isPacked = false)
    {x y : Nat} (hy : y < p.height) (hx : x + w ≤ p.width) :
    x * p.format.depth.bytes + w * p.format.depth.bytes ≤ p.stride ∧
      y * p.stride + p.stride ≤ p.data.size := by
  have hrow := hp.rowBytes_le
  have hsize := hp.size_le
  have hx' : (x + w) * p.format.depth.bytes ≤ p.width * p.format.depth.bytes :=
    Nat.mul_le_mul_right _ hx
  have hy' : (y + 1) * p.stride ≤ p.height * p.stride := Nat.mul_le_mul_right _ hy
  rw [Nat.add_mul] at hx'
  rw [Nat.succ_mul, Nat.mul_comm p.height] at hy'
  have hbits := (Depth.bits_of_not_isPacked hpack).1
  simp only [Frame.rowBytes, Depth.rowBytes, hbits, Nat.mul_left_comm p.width] at hrow
  omega

theorem exists_owner {p : Pixmap} (hpack : p.format.depth.isPacked = false) {x y k : Nat}
    (hy : y < p.height) (hx : x + w ≤ p.width)
    (hle : y * p.stride + x * p.format.depth.bytes ≤ k / 8)
    (hlt : k / 8 < y * p.stride + x * p.format.depth.bytes + w * p.format.depth.bytes) :
    ∃ c : Point, c.y = y ∧ (x : Int) ≤ c.x ∧ c.x < x + w ∧ p.Owns c k := by
  have hbits := (Depth.bits_of_not_isPacked hpack).1
  have hpos : 0 < p.format.depth.bytes := by
    have := p.format.depth.bits_pos
    omega
  -- Dividing the distance from the first byte by the bytes of a pixel gives the column.
  obtain ⟨t, ht⟩ : ∃ t, k / 8 = y * p.stride + x * p.format.depth.bytes + t :=
    Nat.exists_eq_add_of_le hle
  have hi : t / p.format.depth.bytes < w :=
    Nat.div_lt_of_lt_mul (by rw [Nat.mul_comm]; omega)
  have hdown := Nat.div_mul_le_self t p.format.depth.bytes
  have hup := Nat.lt_div_mul_add hpos (a := t)
  generalize t / p.format.depth.bytes = i at hi hdown hup
  refine ⟨⟨x + i, y⟩, rfl, by dsimp only; omega, by dsimp only; omega,
    Frame.mem_bounds.mpr (by dsimp only; omega), ?_, ?_⟩
  all_goals
    simp only [Frame.firstBit, Depth.firstBit_of_not_isPacked hpack,
      Depth.byteIndex_of_not_isPacked hpack, hbits, Int.toNat_natCast]
    rw [show (x + i : Int).toNat = x + i by omega, Nat.add_mul]
    omega

variable (hpack : src.format.depth.isPacked = false)
  (hdepth : dst.format.depth = src.format.depth)
include hs hd hpack hdepth

theorem Valid.copyBytes (hsy : sy < src.height) (hsx : sx + w ≤ src.width)
    (hdy : dy < dst.height) (hdx : dx + w ≤ dst.width) (hx : (dx : Int) = sx + o.x)
    (hy : (dy : Int) = sy + o.y) {s d len : Nat}
    (hseq : s = sy * src.stride + sx * src.format.depth.bytes)
    (hdeq : d = dy * dst.stride + dx * src.format.depth.bytes)
    (hlen : len = w * src.format.depth.bytes) :
    s + len ≤ src.data.size ∧ d + len ≤ dst.data.size ∧
      Repainted dst ⟨dst.toFrame, src.data.copySlice s dst.data d len⟩
        {c | c.y = dy ∧ (dx : Int) ≤ c.x ∧ c.x < dx + w} (fun c => src.shown (c.back o)) := by
  obtain ⟨hsrow, hsend⟩ := hs.bytes_fit hpack hsy hsx
  obtain ⟨hdrow, hdend⟩ := hd.bytes_fit (by rw [hdepth]; exact hpack) hdy hdx
  rw [hdepth] at hdrow
  have hsfit : s + len ≤ src.data.size := by omega
  have hdfit : d + len ≤ dst.data.size := by omega
  refine ⟨hsfit, hdfit, rfl, size_copySlice hsfit hdfit, ?_, ?_⟩
  · rintro ⟨cx, cy⟩ ⟨hcy, hcx, hcx'⟩ _
    dsimp only at hcy hcx hcx'
    -- Column `i` of the row, on both sides.
    obtain ⟨i, hi, rfl⟩ : ∃ i : Nat, i < w ∧ cx = dx + i := ⟨(cx - dx).toNat, by omega, by omega⟩
    have hcol : (dx + i : Int).toNat = dx + i ∧ (dx + i - o.x : Int).toNat = sx + i := by omega
    have hrow : cy.toNat = dy ∧ (cy - o.y).toNat = sy := by omega
    have hmul : (i + 1) * src.format.depth.bytes ≤ w * src.format.depth.bytes :=
      Nat.mul_le_mul_right _ hi
    rw [Nat.succ_mul] at hmul
    simp only [shown, rowStart, Point.back, hdepth, hcol, hrow]
    apply Depth.load_copySlice hpack hsfit hdfit
    all_goals
      simp only [Nat.add_mul]
      omega
  · intro k hk
    rw [bitAt, bitAt, byteAt_copySlice hsfit hdfit, if_neg]
    rintro ⟨hle, hlt⟩
    obtain ⟨c, hcy, hcx, hcx', howns⟩ := exists_owner (by rw [hdepth]; exact hpack) hdy hdx
      (k := k) (by rw [hdepth]; omega) (by rw [hdepth]; omega)
    exact hk c ⟨hcy, hcx, hcx'⟩ howns

theorem Valid.copyByteRows (hsy : sy + n ≤ src.height) (hsx : sx + w ≤ src.width)
    (hdy : dy + n ≤ dst.height) (hdx : dx + w ≤ dst.width) (hx : (dx : Int) = sx + o.x)
    (hy : (dy : Int) = sy + o.y) {s d len : Nat}
    (hseq : s = sy * src.stride + sx * src.format.depth.bytes)
    (hdeq : d = dy * dst.stride + dx * src.format.depth.bytes)
    (hlen : len = w * src.format.depth.bytes) :
    ∃ data, Scanline.copyByteRows src.data src.stride dst.stride len n s d dst.data = .ok data ∧
      Repainted dst ⟨dst.toFrame, data⟩
        {c | (dy : Int) ≤ c.y ∧ c.y < dy + n ∧ (dx : Int) ≤ c.x ∧ c.x < dx + w}
        (fun c => src.shown (c.back o)) := by
  induction n generalizing dst sy dy s d with
  | zero =>
    refine ⟨dst.data, rfl, .of_forall_notMem fun c hc => ?_⟩
    rw [Set.mem_ofPred_eq] at hc
    omega
  | succ n ih =>
    obtain ⟨hsfit, hdfit, h⟩ := hs.copyBytes hd hpack hdepth (by omega) hsx (by omega) hdx hx hy
      hseq hdeq hlen
    obtain ⟨data, hdata, h'⟩ := ih (h.valid hd) hdepth
      (show sy + 1 + n ≤ src.height by omega) (show dy + 1 + n ≤ dst.height by omega) hdx
      (by omega) (s := s + src.stride) (d := d + dst.stride)
      (by rw [Nat.succ_mul]; omega) (by dsimp only; rw [Nat.succ_mul]; omega)
    refine ⟨data, by rw [Scanline.copyByteRows, if_pos ⟨hsfit, hdfit⟩]; exact hdata, ?_⟩
    refine (h.trans hd h').congr ?_ fun _ _ _ => rfl
    intro c _
    simp only [Set.mem_union, Set.mem_ofPred_eq]
    omega

end Bytes

section Pixels
variable {recode : Pixel → Except Failure Pixel} {conv : Pixel → Pixel}
  (hrec : ∀ v, ∃ u, recode v = .ok u ∧ conv v = u &&& dst.format.depth.mask)
include hs hd hrec

theorem Valid.copyPixels (hsy : sy < src.height) (hsx : sx + n ≤ src.width)
    (hdy : dy < dst.height) (hdx : dx + n ≤ dst.width) (hx : (dx : Int) = sx + o.x)
    (hy : (dy : Int) = sy + o.y) :
    ∃ q, Scanline.copyPixels src recode sy dy n sx dx dst = .ok q ∧
      Repainted dst q {c | c.y = dy ∧ (dx : Int) ≤ c.x ∧ c.x < dx + n}
        (fun c => conv (src.shown (c.back o))) := by
  induction n generalizing dst sx dx with
  | zero =>
    refine ⟨dst, rfl, .of_forall_notMem fun c hc => ?_⟩
    rw [Set.mem_ofPred_eq] at hc
    omega
  | succ n ih =>
    have hsc : (⟨sx, sy⟩ : Point) ∈ src.bounds := Frame.mem_bounds_of_lt (by omega) hsy
    have hdc : (⟨dx, dy⟩ : Point) ∈ dst.bounds := Frame.mem_bounds_of_lt (by omega) hdy
    have hback : (⟨dx, dy⟩ : Point).back o = ⟨sx, sy⟩ := by
      simp only [Point.back, Point.mk.injEq]
      omega
    obtain ⟨u, hu, hconv⟩ := hrec (src.shown ⟨sx, sy⟩)
    obtain ⟨q, hq, h⟩ := hd.write hdc (v := u) (fun c => conv (src.shown (c.back o)))
      (by rw [hback, hconv])
    obtain ⟨r, hr, h'⟩ := ih (h.valid hd) (by rw [h.frame_eq]; exact hrec)
      (show sx + 1 + n ≤ src.width by omega) (by rw [h.frame_eq]; exact hdy)
      (show dx + 1 + n ≤ q.width by rw [h.frame_eq]; omega) (by omega)
    have hread := hs.read_eq hsc
    simp only [Int.toNat_natCast] at hread hq
    refine ⟨r, by rw [Scanline.copyPixels, hread]; simp only [hu, hq]; exact hr, ?_⟩
    refine (h.trans hd h').congr ?_ fun _ _ _ => rfl
    intro c _
    rcases c with ⟨cx, cy⟩
    simp only [Set.mem_union, Set.mem_singleton_iff, Set.mem_ofPred_eq, Point.mk.injEq]
    omega

theorem Valid.copyPixelRows (hsy : sy + n ≤ src.height) (hsx : sx + w ≤ src.width)
    (hdy : dy + n ≤ dst.height) (hdx : dx + w ≤ dst.width) (hx : (dx : Int) = sx + o.x)
    (hy : (dy : Int) = sy + o.y) :
    ∃ q, Scanline.copyPixelRows src recode w sx dx n sy dy dst = .ok q ∧
      Repainted dst q {c | (dy : Int) ≤ c.y ∧ c.y < dy + n ∧ (dx : Int) ≤ c.x ∧ c.x < dx + w}
        (fun c => conv (src.shown (c.back o))) := by
  induction n generalizing dst sy dy with
  | zero =>
    refine ⟨dst, rfl, .of_forall_notMem fun c hc => ?_⟩
    rw [Set.mem_ofPred_eq] at hc
    omega
  | succ n ih =>
    obtain ⟨q, hq, h⟩ := hs.copyPixels hd hrec (by omega) hsx (by omega) hdx hx hy
    obtain ⟨r, hr, h'⟩ := ih (h.valid hd) (by rw [h.frame_eq]; exact hrec)
      (show sy + 1 + n ≤ src.height by omega)
      (show dy + 1 + n ≤ q.height by rw [h.frame_eq]; omega) (by rw [h.frame_eq]; exact hdx)
      (by omega)
    refine ⟨r, by simp only [Scanline.copyPixelRows, hq]; exact hr, ?_⟩
    refine (h.trans hd h').congr ?_ fun _ _ _ => rfl
    intro c _
    simp only [Set.mem_union, Set.mem_ofPred_eq]
    omega

end Pixels

end Pixmap

end Scanline

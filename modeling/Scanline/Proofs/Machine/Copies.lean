import Scanline.Proofs.Machine.Frames
import Scanline.Proofs.Machine.Windows
import Scanline.Proofs.Pixmap.Rewritten
/-! Copies in machine arithmetic. A block that lies in both pixmaps goes into 32 bits as it is; its
rows and columns are counted in 32 bits and its bytes in as many as an address has. -/

namespace Scanline.Machine

/-- The first byte of column `x` of row `y`, where every pixel has so many bytes. -/
def address (stride bytes x y : Nat) : Except Failure Nat := do
  let row ← u64 (y * stride : Nat)
  let first ← u64 (row + (← u64 (x * bytes : Nat)))
  return first.toNat

/-- A row or a column some steps on. -/
def onward (v n : Nat) : Except Failure Nat := do return (← u32 (v + n : Nat)).toNat

/-- Copies the bytes of `n` rows of a block, from its row `j` on. -/
def copyByteRows (src : ByteArray) (srcStride dstStride bytes sx sy dx dy len : Nat) :
    (n j : Nat) → ByteArray → Except Failure ByteArray
  | 0, _, data => return data
  | n + 1, j, data => do
    let s ← address srcStride bytes sx (← onward sy j)
    let d ← address dstStride bytes dx (← onward dy j)
    let sEnd ← u64 (s + len : Nat)
    let dEnd ← u64 (d + len : Nat)
    if sEnd ≤ src.size ∧ dEnd ≤ data.size then
      copyByteRows src srcStride dstStride bytes sx sy dx dy len n (j + 1)
        (src.copySlice s data d len)
    else .error (.fault .outside)

/-- Copies `n` pixels of a row of a block, from its column `i` on. -/
def copyPixels (src : Pixmap) (recode : Pixel → Except Failure Pixel) (sx sy dx dy : Nat) :
    (n i : Nat) → Pixmap → Except Failure Pixmap
  | 0, _, dst => return dst
  | n + 1, i, dst => do
    let x ← onward sx i
    reach src.toFrame x sy
    let v ← recode (← src.read x sy)
    let x ← onward dx i
    reach dst.toFrame x dy
    copyPixels src recode sx sy dx dy n (i + 1) (← dst.write x dy v)

/-- Copies `n` rows of a block pixel by pixel, from its row `j` on. -/
def copyPixelRows (src : Pixmap) (recode : Pixel → Except Failure Pixel) (w sx sy dx dy : Nat) :
    (n j : Nat) → Pixmap → Except Failure Pixmap
  | 0, _, dst => return dst
  | n + 1, j, dst => do
    let dst ← copyPixels src recode sx (← onward sy j) dx (← onward dy j) w 0 dst
    copyPixelRows src recode w sx sy dx dy n (j + 1) dst

def copyBlock (dst src : Pixmap) (b : Block) : Except Failure Pixmap := do
  let sx ← u32 b.sx
  let sy ← u32 b.sy
  let w ← u32 b.w
  let h ← u32 b.h
  let dx ← u32 b.dx
  let dy ← u32 b.dy
  if src.format.sameLayout dst.format && !src.format.depth.isPacked then
    let len ← u64 (w.toNat * src.format.depth.bytes : Nat)
    let data ← copyByteRows src.data src.stride dst.stride src.format.depth.bytes sx.toNat sy.toNat
      dx.toNat dy.toNat len.toNat h.toNat 0 dst.data
    return ⟨dst.toFrame, data⟩
  else
    copyPixelRows src (Pixmap.recode src.toFrame dst.toFrame) w.toNat sx.toNat sy.toNat dx.toNat
      dy.toNat h.toNat 0 dst

/-- Copies a block. The answer is the box that was written. -/
def copyAnswered (dst src : Pixmap) (b : Block) : Except Failure (Box × Pixmap) := do
  let q ← copyBlock dst src b
  return (← blockBox b.dx b.dy b.w b.h, q)

def blit (dst src : Pixmap) (r : Window) (q : Point) : Except Failure (Box × Pixmap) := do
  copyAnswered dst src (← placed src.toFrame dst.toFrame r q)

def blitClipped (dst src : Pixmap) (r : Window) (q : Point) : Except Failure (Box × Pixmap) := do
  match ← clipped? r q src.width src.height dst.width dst.height with
  | none => return (Box.empty, dst)
  | some b => copyAnswered dst src b

def onWindow (dst : Pixmap) (r : Option Window)
    (copy : Pixmap → Window → Except Failure (Box × Pixmap)) : Except Failure (Box × Pixmap) :=
  match r with
  | none => .ok (Box.empty, dst)
  | some r => copy dst r

def blitSized (dst src : Pixmap) (x y : Int) (w h : Nat) (q : Point) :
    Except Failure (Box × Pixmap) := do
  onWindow dst (← windowOfSize? x y w h) fun dst r => blit dst src r q

def blitSizedClipped (dst src : Pixmap) (x y : Int) (w h : Nat) (q : Point) :
    Except Failure (Box × Pixmap) := do
  onWindow dst (← windowOfSize? x y w h) fun dst r => blitClipped dst src r q

variable {src dst : Pixmap} (hs : src.Valid) (hd : dst.Valid)

theorem onward_eq {v n : Nat} (h : v + n ≤ 0xffffffff) : onward v n = .ok (v + n) := by
  rw [onward, u32_eq (by omega) (by omega)]
  rfl

section Bytes
variable {p : Pixmap} {x y w n j sx sy dx dy : Nat}

theorem bytes_bounds (hp : p.Valid) (hpack : p.format.depth.isPacked = false) (hx : x + w ≤ p.width)
    (hy : y < p.height) : y * p.stride + x * p.format.depth.bytes + w * p.format.depth.bytes ≤
      0xffffffffffffffff := by
  have hrow := (hp.bytes_fit hpack hy hx).1
  have hend := row_end_le hp hy
  omega

theorem address_eq {stride bytes : Nat} (h : y * stride + x * bytes ≤ 0xffffffffffffffff) :
    address stride bytes x y = .ok (y * stride + x * bytes) := by
  rw [address, u64_eq (by omega) (by omega), ok_bind, u64_eq (by omega) (by omega), ok_bind,
    u64_eq (by omega) (by omega)]
  rfl

include hs hd

theorem copyByteRows_eq (hpack : src.format.depth.isPacked = false)
    (hdepth : dst.format.depth = src.format.depth) (hsx : sx + w ≤ src.width)
    (hdx : dx + w ≤ dst.width) (hsy : sy + (j + n) ≤ src.height) (hdy : dy + (j + n) ≤ dst.height)
    (data : ByteArray) :
    copyByteRows src.data src.stride dst.stride src.format.depth.bytes sx sy dx dy
        (w * src.format.depth.bytes) n j data =
      Scanline.copyByteRows src.data src.stride dst.stride (w * src.format.depth.bytes) n
        ((sy + j) * src.stride + sx * src.format.depth.bytes)
        ((dy + j) * dst.stride + dx * src.format.depth.bytes) data := by
  have hsh : (src.height : Int) ≤ 0x7fffffff := hs.height_le
  have hdh : (dst.height : Int) ≤ 0x7fffffff := hd.height_le
  induction n generalizing j data with
  | zero => rfl
  | succ n ih =>
    have hsend := bytes_bounds hs hpack hsx (y := sy + j) (by omega)
    have hdend := bytes_bounds hd (hdepth ▸ hpack) hdx (y := dy + j) (by omega)
    rw [hdepth] at hdend
    rw [copyByteRows, onward_eq (by omega), ok_bind, address_eq (by omega), ok_bind,
      onward_eq (by omega), ok_bind, address_eq (by omega), ok_bind, u64_eq (by omega) (by omega),
      ok_bind, u64_eq (by omega) (by omega), ok_bind, Scanline.copyByteRows]
    simp only [Int.ofNat_le]
    split
    · rw [ih (by omega) (by omega), ← Nat.add_assoc sy, ← Nat.add_assoc dy, Nat.succ_mul,
        Nat.succ_mul, Nat.add_right_comm, Nat.add_right_comm (_ * dst.stride)]
    · rfl

end Bytes

section Pixels
variable {x y w n i j sx sy dx dy : Nat} {recode : Pixel → Except Failure Pixel}
include hs

theorem copyPixels_eq {dst : Pixmap} (hd : dst.Valid) (hsx : sx + (i + n) ≤ src.width)
    (hdx : dx + (i + n) ≤ dst.width) (hsy : sy < src.height) (hdy : dy < dst.height) :
    copyPixels src recode sx sy dx dy n i dst =
      Scanline.copyPixels src recode sy dy n (sx + i) (dx + i) dst := by
  induction n generalizing i dst with
  | zero => rfl
  | succ n ih =>
    have hsw : (src.width : Int) ≤ 0x7fffffff := hs.width_le
    have hdw : (dst.width : Int) ≤ 0x7fffffff := hd.width_le
    rw [copyPixels, onward_eq (by omega), ok_bind, reach_eq hs (by omega) hsy, ok_bind,
      onward_eq (by omega), Scanline.copyPixels]
    cases src.read (sx + i) sy with
    | error e => rfl
    | ok v =>
      dsimp only [ok_bind]
      cases recode v with
      | error e => rfl
      | ok v =>
        dsimp only [ok_bind]
        rw [reach_eq hd (by omega) hdy, ok_bind]
        cases hwrite : dst.write (dx + i) dy v with
        | error e => rfl
        | ok q =>
          have hq := Pixmap.rewritten_of_write hwrite
          have hframe := hq.frame_eq
          rw [ok_bind, ih (hq.valid hd) (by omega) (by rw [hframe]; omega) (by rw [hframe]; omega)]
          rfl

theorem copyPixelRows_eq {dst : Pixmap} (hd : dst.Valid) (hsx : sx + w ≤ src.width)
    (hdx : dx + w ≤ dst.width) (hsy : sy + (j + n) ≤ src.height)
    (hdy : dy + (j + n) ≤ dst.height) :
    copyPixelRows src recode w sx sy dx dy n j dst =
      Scanline.copyPixelRows src recode w sx dx n (sy + j) (dy + j) dst := by
  induction n generalizing j dst with
  | zero => rfl
  | succ n ih =>
    have hsh : (src.height : Int) ≤ 0x7fffffff := hs.height_le
    have hdh : (dst.height : Int) ≤ 0x7fffffff := hd.height_le
    rw [copyPixelRows, onward_eq (by omega), ok_bind, onward_eq (by omega), ok_bind,
      copyPixels_eq hs hd (by omega) (by omega) (by omega) (by omega), Scanline.copyPixelRows,
      Nat.add_zero, Nat.add_zero]
    cases hrow : Scanline.copyPixels src recode (sy + j) (dy + j) w sx dx dst with
    | error e => rfl
    | ok q =>
      have hq := Pixmap.rewritten_of_copyPixels hrow
      have hframe := hq.frame_eq
      rw [ok_bind, ih (hq.valid hd) (by rw [hframe]; omega) (by omega) (by rw [hframe]; omega)]
      rfl

end Pixels

section Blocks
variable {b : Block} (hb : b.Inside src.width src.height dst.width dst.height)
include hs hd hb

theorem copyBlock_eq : copyBlock dst src b = dst.copyBlock src b := by
  obtain ⟨hw, hh, hsx, hsy, hsx', hsy', hdx, hdy, hdx', hdy'⟩ := hb
  have hsw : (src.width : Int) ≤ 0x7fffffff := hs.width_le
  have hsh : (src.height : Int) ≤ 0x7fffffff := hs.height_le
  have hdw : (dst.width : Int) ≤ 0x7fffffff := hd.width_le
  have hdh : (dst.height : Int) ≤ 0x7fffffff := hd.height_le
  unfold copyBlock Pixmap.copyBlock
  rw [u32_eq (by omega) (by omega), ok_bind, u32_eq (by omega) (by omega), ok_bind,
    u32_eq (by omega) (by omega), ok_bind, u32_eq (by omega) (by omega), ok_bind,
    u32_eq (by omega) (by omega), ok_bind, u32_eq (by omega) (by omega), ok_bind]
  dsimp only
  split
  · rename_i hbytes
    rw [Bool.and_eq_true, Bool.not_eq_true'] at hbytes
    obtain ⟨hsame, hpack⟩ := hbytes
    have hdepth := Format.depth_eq_of_sameLayout hsame
    have hsxw : b.sx.toNat + b.w.toNat ≤ src.width := by omega
    have hdxw : b.dx.toNat + b.w.toNat ≤ dst.width := by omega
    have hlen := bytes_bounds hs hpack hsxw (y := b.sy.toNat) (by omega)
    rw [u64_eq (by omega) (by omega), ok_bind, Int.toNat_natCast,
      copyByteRows_eq hs hd hpack hdepth.symm hsxw hdxw (by omega) (by omega) dst.data]
    simp only [Nat.add_zero]
    cases Scanline.copyByteRows src.data src.stride dst.stride
        (b.w.toNat * src.format.depth.bytes) b.h.toNat _ _ dst.data with
    | error e => rfl
    | ok data => rfl
  · exact copyPixelRows_eq hs hd (by omega) (by omega) (by omega) (by omega)

theorem copyAnswered_eq : copyAnswered dst src b = (dst.copyNoted src b).result := by
  have hdw : (dst.width : Int) ≤ 0x7fffffff := hd.width_le
  have hdh : (dst.height : Int) ≤ 0x7fffffff := hd.height_le
  have hbox : blockBox b.dx b.dy b.w b.h = .ok b.target :=
    blockBox_eq ⟨hb.dx_nonneg, Int.le_trans hb.dx_le hdw⟩ ⟨hb.dy_nonneg, Int.le_trans hb.dy_le hdh⟩
      (Int.le_of_lt hb.w_pos) (Int.le_of_lt hb.h_pos)
  rw [copyAnswered, copyBlock_eq hs hd hb, hbox, Pixmap.copyNoted]
  cases dst.copyBlock src b with
  | error e => rfl
  | ok q => rfl

end Blocks

section Windows
variable {r : Window} {q : Point} {x y : Int} {w h : Nat}
include hs hd

theorem blit_eq (hr : r.InRange) (hx : r.left ≤ r.right) (hy : r.top ≤ r.bottom) (hq : q.InRange) :
    blit dst src r q = (dst.blit src r q).result := by
  rw [blit, placed_eq hr hq, Pixmap.blit]
  cases hplaced : Pixmap.placed src.toFrame dst.toFrame r q with
  | error m => rfl
  | ok b => exact copyAnswered_eq hs hd (checked_inside hx hy hplaced)

theorem blitClipped_eq (hr : r.InRange) (hq : q.InRange) :
    blitClipped dst src r q = (dst.blitClipped src r q).result := by
  rw [blitClipped, clipped?_eq hr hq hs.width_le hs.height_le hd.width_le hd.height_le, ok_bind,
    Pixmap.blitClipped]
  cases hclip : r.clipped? q src.width src.height dst.width dst.height with
  | none => rfl
  | some b => exact copyAnswered_eq hs hd (Window.clipped?_eq_some hclip).1

theorem blitSized_eq (hb : (⟨x, y, w, h⟩ : Box).InRange) (hq : q.InRange) :
    blitSized dst src x y w h q = (dst.blitSized src x y w h q).result := by
  rw [blitSized, windowOfSize?_eq hb, Pixmap.blitSized]
  cases hwindow : Window.ofSize? x y w h with
  | none => rfl
  | some r =>
    obtain ⟨hw, hh, hr⟩ := Window.ofSize?_eq_some hwindow
    exact blit_eq hs hd (inRange_ofSize? hb hwindow) (by rw [hr]; dsimp only; omega)
      (by rw [hr]; dsimp only; omega) hq

theorem blitSizedClipped_eq (hb : (⟨x, y, w, h⟩ : Box).InRange) (hq : q.InRange) :
    blitSizedClipped dst src x y w h q = (dst.blitSizedClipped src x y w h q).result := by
  rw [blitSizedClipped, windowOfSize?_eq hb, Pixmap.blitSizedClipped]
  cases hwindow : Window.ofSize? x y w h with
  | none => rfl
  | some r => exact blitClipped_eq hs hd (inRange_ofSize? hb hwindow) hq

end Windows

end Scanline.Machine

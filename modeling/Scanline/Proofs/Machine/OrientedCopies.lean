import Scanline.Proofs.Blit.Oriented
import Scanline.Proofs.Machine.Copies
/-! Copies between oriented pixmaps in machine arithmetic. The places of a block that both
orientations show go into 32 bits as they are, on the way to the buffer and there. -/

namespace Scanline.Machine

/-- Where the pixel of a block that starts at `(x, y)` lies in the buffer. -/
def orientedPlace (f : Frame) (x y : Int) (i j : Nat) : Except Failure (Nat × Nat) := do
  let column ← i32 (← i64 (x + i))
  let row ← i32 (← i64 (y + j))
  let q ← transformPoint f ⟨column, row⟩
  return ((← u32 q.x).toNat, (← u32 q.y).toNat)

def getRaw (p : Pixmap) (x y : Nat) : Except Failure Pixel := do
  p.checkInside x y
  reach p.toFrame x y
  p.read x y

def putRaw (p : Pixmap) (x y : Nat) (v : Pixel) : Except Failure Pixmap := do
  p.checkInside x y
  reach p.toFrame x y
  p.write x y v

/-- Copies `n` oriented pixels of row `j` of a block, from its column `i` on. -/
def copyOrientedPixels (src : Pixmap) (b : Block) (j : Nat) :
    (n i : Nat) → Pixmap → Except Failure Pixmap
  | 0, _, dst => return dst
  | n + 1, i, dst => do
    let s ← orientedPlace src.toFrame b.sx b.sy i j
    let v ← getRaw src s.1 s.2
    let v ← src.format.convert v dst.format
    let d ← orientedPlace dst.toFrame b.dx b.dy i j
    copyOrientedPixels src b j n (i + 1) (← putRaw dst d.1 d.2 v)

def copyOrientedRows (src : Pixmap) (b : Block) : (n j : Nat) → Pixmap → Except Failure Pixmap
  | 0, _, dst => return dst
  | n + 1, j, dst => do
    copyOrientedRows src b n (j + 1) (← copyOrientedPixels src b j b.w.toNat 0 dst)

def copyOriented (dst src : Pixmap) (b : Block) : Except Failure (Box × Pixmap) := do
  let source ← transformBox src.toFrame (← blockBox b.sx b.sy b.w b.h)
  let target ← transformBox dst.toFrame (← blockBox b.dx b.dy b.w b.h)
  if src.orientation = dst.orientation then
    let copied ← blitSized dst src source.x source.y source.w source.h ⟨target.x, target.y⟩
    return (target, copied.2)
  else
    return (target, ← copyOrientedRows src b b.h.toNat 0 dst)

def blitOriented (dst src : Pixmap) (r : Window) (q : Point) : Except Failure (Box × Pixmap) := do
  copyOriented dst src (← placedOriented src.toFrame dst.toFrame r q)

def blitOrientedClipped (dst src : Pixmap) (r : Window) (q : Point) :
    Except Failure (Box × Pixmap) := do
  match ← clipped? r q src.orientedWidth src.orientedHeight dst.orientedWidth
      dst.orientedHeight with
  | none => return (Box.empty, dst)
  | some b => copyOriented dst src b

variable {src dst p q : Pixmap} {b : Block} {x y v w h : Int}

theorem getRaw_eq (hp : p.Valid) (x y : Nat) : getRaw p x y = p.getRaw x y := by
  rw [getRaw, Pixmap.getRaw, Pixmap.checkInside]
  by_cases hin : x < p.width ∧ y < p.height
  · rw [if_pos hin, ok_bind, ok_bind, reach_eq hp hin.1 hin.2, ok_bind]
  · rw [if_neg hin]
    rfl

theorem putRaw_eq (hp : p.Valid) (x y : Nat) (v : Pixel) : putRaw p x y v = p.putRaw x y v := by
  rw [putRaw, Pixmap.putRaw, Pixmap.checkInside]
  by_cases hin : x < p.width ∧ y < p.height
  · rw [if_pos hin, ok_bind, ok_bind, reach_eq hp hin.1 hin.2, ok_bind]
  · rw [if_neg hin]
    rfl

theorem orientedPlace_eq (hp : p.Valid) {i j : Nat}
    (h : (⟨x + i, y + j⟩ : Point) ∈ p.orientedBounds) :
    orientedPlace p.toFrame x y i j = .ok ((p.transformPoint ⟨x + i, y + j⟩).x.toNat,
      (p.transformPoint ⟨x + i, y + j⟩).y.toNat) := by
  have hmem := (Frame.transformPoint_mem_iff hp.width_le hp.height_le).mpr h
  obtain ⟨hx, hx', hy, hy'⟩ := hp.onScreen hmem
  obtain ⟨hqx, hqx', hqy, hqy'⟩ := Box.mem_ofSize.mp h
  have hw : (p.orientedWidth : Int) ≤ 0x7fffffff := Frame.orientedWidth_le hp.width_le hp.height_le
  have hh : (p.orientedHeight : Int) ≤ 0x7fffffff :=
    Frame.orientedHeight_le hp.width_le hp.height_le
  unfold coordMax at hx' hy'
  dsimp only at hqx hqx' hqy hqy'
  have hrange : (⟨x + i, y + j⟩ : Point).InRange := by
    constructor
    all_goals
      simp only [coordMin, coordMax]
      omega
  rw [orientedPlace, i64_eq (by omega) (by omega), ok_bind, i32_eq (by omega) (by omega), ok_bind,
    i64_eq (by omega) (by omega), ok_bind, i32_eq (by omega) (by omega), ok_bind,
    transformPoint_eq hp hrange, ok_bind, u32_eq (by omega) (by omega), ok_bind,
    u32_eq (by omega) (by omega)]
  rfl

section Pixels
variable (hs : src.Valid)
include hs

theorem copyOrientedPixels_eq {n i j : Nat} {dst : Pixmap} (hd : dst.Valid)
    (hb : b.Inside src.orientedWidth src.orientedHeight dst.orientedWidth dst.orientedHeight)
    (hj : (j : Int) < b.h) (hi : ((i + n : Nat) : Int) ≤ b.w) :
    copyOrientedPixels src b j n i dst = Scanline.copyOrientedPixels src b j n i dst := by
  induction n generalizing i dst with
  | zero => rfl
  | succ n ih =>
    have hcell : (⟨b.dx + i, b.dy + j⟩ : Point) ∈ b.cells :=
      Block.mem_cells.mpr (by dsimp only; omega)
    have hback : (⟨b.dx + i, b.dy + j⟩ : Point).back b.offset = ⟨b.sx + i, b.sy + j⟩ := by
      simp only [Point.back, Block.offset, Point.mk.injEq]
      omega
    obtain ⟨hshown, hfrom⟩ := Pixmap.cells_shown hb hcell
    rw [hback] at hfrom
    rw [copyOrientedPixels, orientedPlace_eq hs hfrom, ok_bind, getRaw_eq hs,
      orientedPlace_eq hd hshown, Scanline.copyOrientedPixels]
    cases src.getRaw _ _ with
    | error e => rfl
    | ok v =>
      dsimp only [ok_bind]
      cases src.format.convert v dst.format with
      | error e => rfl
      | ok v =>
        dsimp only [ok_bind]
        rw [putRaw_eq hd]
        cases hput : dst.putRaw _ _ v with
        | error e => rfl
        | ok q =>
          have hq := Pixmap.rewritten_of_putRaw hput
          rw [ok_bind, ok_bind]
          exact ih (hq.valid hd) (by rw [hq.frame_eq]; exact hb) (by omega)

theorem copyOrientedRows_eq {n j : Nat} {dst : Pixmap} (hd : dst.Valid)
    (hb : b.Inside src.orientedWidth src.orientedHeight dst.orientedWidth dst.orientedHeight)
    (hj : ((j + n : Nat) : Int) ≤ b.h) :
    copyOrientedRows src b n j dst = Scanline.copyOrientedRows src b n j dst := by
  induction n generalizing j dst with
  | zero => rfl
  | succ n ih =>
    have hw := hb.w_pos
    rw [copyOrientedRows, copyOrientedPixels_eq hs hd hb (by omega) (by omega),
      Scanline.copyOrientedRows]
    cases hrow : Scanline.copyOrientedPixels src b j b.w.toNat 0 dst with
    | error e => rfl
    | ok q =>
      have hq := Pixmap.rewritten_of_copyOrientedPixels hrow
      rw [ok_bind, ok_bind]
      exact ih (hq.valid hd) (by rw [hq.frame_eq]; exact hb) (by omega)

end Pixels

section Copies
variable (hs : src.Valid) (hd : dst.Valid) {r : Window} {q : Point}
include hs hd

theorem copyOriented_eq
    (hb : b.Inside src.orientedWidth src.orientedHeight dst.orientedWidth dst.orientedHeight) :
    copyOriented dst src b = (dst.copyOriented src b).result := by
  have hsw := Frame.orientedWidth_le hs.width_le hs.height_le
  have hsh := Frame.orientedHeight_le hs.width_le hs.height_le
  have hdw := Frame.orientedWidth_le hd.width_le hd.height_le
  have hdh := Frame.orientedHeight_le hd.width_le hd.height_le
  have hw := Int.le_of_lt hb.w_pos
  have hh := Int.le_of_lt hb.h_pos
  have hsource : blockBox b.sx b.sy b.w b.h = .ok b.source :=
    blockBox_eq ⟨hb.sx_nonneg, Int.le_trans hb.sx_le hsw⟩ ⟨hb.sy_nonneg, Int.le_trans hb.sy_le hsh⟩
      hw hh
  have htarget : blockBox b.dx b.dy b.w b.h = .ok b.target :=
    blockBox_eq ⟨hb.dx_nonneg, Int.le_trans hb.dx_le hdw⟩ ⟨hb.dy_nonneg, Int.le_trans hb.dy_le hdh⟩
      hw hh
  have hfrom := transformBox_inRange src.toFrame b.source
  have hto := transformBox_inRange dst.toFrame b.target
  rw [copyOriented, hsource, ok_bind,
    transformBox_eq (b := b.source) hs (Box.inRange_ofEdges _ _ _ _), ok_bind, htarget, ok_bind,
    transformBox_eq (b := b.target) hd (Box.inRange_ofEdges _ _ _ _), ok_bind, Pixmap.copyOriented]
  generalize src.transformBox b.source = source at hfrom ⊢
  generalize dst.transformBox b.target = target at hto ⊢
  have hplace : (⟨target.x, target.y⟩ : Point).InRange := ⟨hto.x_ge, hto.x_le, hto.y_ge, hto.y_le⟩
  split
  · rw [blitSized_eq hs hd hfrom hplace, Attempt.result_bind]
    rfl
  · rw [copyOrientedRows_eq hs hd hb (by omega), Attempt.result_bind, Attempt.result_liftM]
    rfl

theorem blitOriented_eq (hr : r.InRange) (hx : r.left ≤ r.right) (hy : r.top ≤ r.bottom)
    (hq : q.InRange) : blitOriented dst src r q = (dst.blitOriented src r q).result := by
  rw [blitOriented, placedOriented_eq hr hq, Pixmap.blitOriented]
  cases hplaced : Pixmap.placedOriented src.toFrame dst.toFrame r q with
  | error m => rfl
  | ok b => exact copyOriented_eq hs hd (checked_inside hx hy hplaced)

theorem blitOrientedClipped_eq (hr : r.InRange) (hq : q.InRange) :
    blitOrientedClipped dst src r q = (dst.blitOrientedClipped src r q).result := by
  rw [blitOrientedClipped, clipped?_eq hr hq (Frame.orientedWidth_le hs.width_le hs.height_le)
    (Frame.orientedHeight_le hs.width_le hs.height_le)
    (Frame.orientedWidth_le hd.width_le hd.height_le)
    (Frame.orientedHeight_le hd.width_le hd.height_le), ok_bind, Pixmap.blitOrientedClipped]
  cases hclip : r.clipped? q src.orientedWidth src.orientedHeight dst.orientedWidth
      dst.orientedHeight with
  | none => rfl
  | some b => exact copyOriented_eq hs hd (Window.clipped?_eq_some hclip).1

end Copies

end Scanline.Machine

import Scanline.Blit.Block
import Scanline.Pixmap
/-! Copying rectangles from one pixmap into another, with conversion between formats. A checked
copy refuses a rectangle that leaves either pixmap; a clipped copy takes what is left of it. Copies
reach the whole buffer: the clip of a pixmap is for drawing only. -/

namespace Scanline

/-- Copies the bytes of `n` rows, `len` in each, from `s` in one buffer to `d` in the other. -/
def copyByteRows (src : ByteArray) (srcStride dstStride len : Nat) :
    (n s d : Nat) → ByteArray → Except Failure ByteArray
  | 0, _, _, dst => .ok dst
  | n + 1, s, d, dst =>
    if s + len ≤ src.size ∧ d + len ≤ dst.size then
      copyByteRows src srcStride dstStride len n (s + srcStride) (d + dstStride)
        (src.copySlice s dst d len)
    else .error (.fault .outside)

/-- Copies `n` pixels of row `sy` from `sx` on to row `dy` from `dx` on. -/
def copyPixels (src : Pixmap) (recode : Pixel → Except Failure Pixel) (sy dy : Nat) :
    (n sx dx : Nat) → Pixmap → Except Failure Pixmap
  | 0, _, _, dst => .ok dst
  | n + 1, sx, dx, dst =>
    match src.read sx sy with
    | .error e => .error e
    | .ok v =>
      match recode v with
      | .error e => .error e
      | .ok v =>
        match dst.write dx dy v with
        | .error e => .error e
        | .ok dst => copyPixels src recode sy dy n (sx + 1) (dx + 1) dst

def copyPixelRows (src : Pixmap) (recode : Pixel → Except Failure Pixel) (w sx dx : Nat) :
    (n sy dy : Nat) → Pixmap → Except Failure Pixmap
  | 0, _, _, dst => .ok dst
  | n + 1, sy, dy, dst =>
    match copyPixels src recode sy dy w sx dx dst with
    | .error e => .error e
    | .ok dst => copyPixelRows src recode w sx dx n (sy + 1) (dy + 1) dst

namespace Pixmap

/-- How a pixel of one pixmap is written in another: as it is if the layouts agree. -/
def recode (src dst : Frame) (v : Pixel) : Except Failure Pixel :=
  if src.format.sameLayout dst.format then .ok v else src.format.convert v dst.format

/-- Copies a block: by bytes if both layouts agree and pixels are whole bytes, else by pixels. -/
def copyBlock (dst src : Pixmap) (b : Block) : Except Failure Pixmap :=
  let depth := src.format.depth
  if src.format.sameLayout dst.format && !depth.isPacked then
    let ⟨frame, data⟩ := dst
    let s := b.sy.toNat * src.stride + b.sx.toNat * depth.bytes
    let d := b.dy.toNat * frame.stride + b.dx.toNat * depth.bytes
    match copyByteRows src.data src.stride frame.stride (b.w.toNat * depth.bytes) b.h.toNat s d
        data with
    | .ok data => .ok ⟨frame, data⟩
    | .error e => .error e
  else
    copyPixelRows src (recode src.toFrame dst.toFrame) b.w.toNat b.sx.toNat b.dx.toNat b.h.toNat
      b.sy.toNat b.dy.toNat dst

/-- Copies a block and notes it. The answer is the box that was written. -/
def copyNoted (dst src : Pixmap) (b : Block) : Attempt (Box × Pixmap) := do
  Attempt.note (.blitting b.w b.h b.sx b.sy src.toFrame b.dx b.dy dst.toFrame)
  let dst ← dst.copyBlock src b
  return (b.target, dst)

/-- The window as a block, if it lies in the source and its place at `q` in the destination. -/
def placed (src dst : Frame) (r : Window) (q : Point) : Except Misuse Block :=
  if !r.isInside src.width src.height then
    .error (.blitSource r.left r.top r.right r.bottom src.width src.height)
  else if !r.isInsideAt q dst.width dst.height then
    .error (.blitDestination r.width r.height q.x q.y dst.width dst.height)
  else .ok (r.place q)

/-- Copies a window of `src` to `q`. Refuses a window that leaves either pixmap. -/
def blit (dst src : Pixmap) (r : Window) (q : Point) : Attempt (Box × Pixmap) :=
  match placed src.toFrame dst.toFrame r q with
  | .error m => .fail (.misuse m)
  | .ok b => dst.copyNoted src b

/-- Copies as much of a window of `src` to `q` as both pixmaps hold. -/
def blitClipped (dst src : Pixmap) (r : Window) (q : Point) : Attempt (Box × Pixmap) :=
  match r.clipped? q src.width src.height dst.width dst.height with
  | none =>
    ⟨.ok (Box.empty, dst), [.blitClippedAway r.left r.top r.right r.bottom q.x q.y]⟩
  | some b => dst.copyNoted src b

def onWindow (dst : Pixmap) (r : Option Window)
    (copy : Pixmap → Window → Attempt (Box × Pixmap)) : Attempt (Box × Pixmap) :=
  match r with
  | none => .ok (Box.empty, dst)
  | some r => copy dst r

/-- As `blit`, with the window given by origin and size. -/
def blitSized (dst src : Pixmap) (x y : Int) (w h : Nat) (q : Point) : Attempt (Box × Pixmap) :=
  dst.onWindow (Window.ofSize? x y w h) fun dst r => dst.blit src r q

def blitSizedClipped (dst src : Pixmap) (x y : Int) (w h : Nat) (q : Point) :
    Attempt (Box × Pixmap) :=
  dst.onWindow (Window.ofSize? x y w h) fun dst r => dst.blitClipped src r q

end Pixmap

end Scanline

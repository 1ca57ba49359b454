import Scanline.Blit.Basic
/-! Copies between oriented pixmaps. Rectangles are checked and clipped against the sizes that the
orientations show, and each pixmap has its own. Where both orientations agree the block keeps its
form in the buffers and is copied there; otherwise every pixel finds its own place. The answer is a
box of the destination buffer. -/

namespace Scanline

/-- Copies `n` oriented pixels of a row, from column `i` of a block on. -/
def copyOrientedPixels (src : Pixmap) (b : Block) (j : Nat) :
    (n i : Nat) → Pixmap → Except Failure Pixmap
  | 0, _, dst => .ok dst
  | n + 1, i, dst => do
    let s := src.transformPoint ⟨b.sx + i, b.sy + j⟩
    let v ← src.getRaw s.x.toNat s.y.toNat
    let v ← src.format.convert v dst.format
    let d := dst.transformPoint ⟨b.dx + i, b.dy + j⟩
    let dst ← dst.putRaw d.x.toNat d.y.toNat v
    copyOrientedPixels src b j n (i + 1) dst

/-- Copies `n` oriented rows of a block, from row `j` on. -/
def copyOrientedRows (src : Pixmap) (b : Block) : (n j : Nat) → Pixmap → Except Failure Pixmap
  | 0, _, dst => .ok dst
  | n + 1, j, dst => do
    let dst ← copyOrientedPixels src b j b.w.toNat 0 dst
    copyOrientedRows src b n (j + 1) dst

namespace Pixmap

def copyOriented (dst src : Pixmap) (b : Block) : Attempt (Box × Pixmap) := do
  let source := src.transformBox b.source
  let target := dst.transformBox b.target
  if src.orientation = dst.orientation then
    let copied ← dst.blitSized src source.x source.y source.w source.h ⟨target.x, target.y⟩
    return (target, copied.2)
  else
    let dst ← copyOrientedRows src b b.h.toNat 0 dst
    return (target, dst)

/-- The window as a block, if the oriented source holds it and the oriented destination its place
at `q`. -/
def placedOriented (src dst : Frame) (r : Window) (q : Point) : Except Misuse Block :=
  if !r.isInside src.orientedWidth src.orientedHeight then
    .error (.orientedBlitSource r.width r.height r.left r.top src.orientedWidth
      src.orientedHeight)
  else if !r.isInsideAt q dst.orientedWidth dst.orientedHeight then
    .error (.orientedBlitDestination r.width r.height q.x q.y dst.orientedWidth
      dst.orientedHeight)
  else .ok (r.place q)

/-- Copies an oriented window of `src` to the oriented point `q`. -/
def blitOriented (dst src : Pixmap) (r : Window) (q : Point) : Attempt (Box × Pixmap) :=
  match placedOriented src.toFrame dst.toFrame r q with
  | .error m => .fail (.misuse m)
  | .ok b => dst.copyOriented src b

/-- Copies as much of an oriented window of `src` to `q` as both pixmaps show. -/
def blitOrientedClipped (dst src : Pixmap) (r : Window) (q : Point) : Attempt (Box × Pixmap) :=
  match r.clipped? q src.orientedWidth src.orientedHeight dst.orientedWidth
      dst.orientedHeight with
  | none => .ok (Box.empty, dst)
  | some b => dst.copyOriented src b

end Pixmap

end Scanline

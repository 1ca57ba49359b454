import Scanline.Pixmap
import Scanline.Shape.Basic
/-! Drawing shapes into a pixmap, in the coordinates of the buffer or through the orientation.
The answer is the box that may have changed: the box of the shape inside the clip. -/

namespace Scanline

def writeRuns (depth : Depth) (stride : Nat) (v : Pixel) :
    List Run → ByteArray → Except Failure ByteArray
  | [], data => .ok data
  | r :: rest, data =>
    match depth.writeRun data (r.y.toNat * stride) v (r.last + 1 - r.first).toNat r.first.toNat with
    | .ok data => writeRuns depth stride v rest data
    | .error e => .error e

namespace Pixmap

def draw (p : Pixmap) (s : Shape) (v : Pixel) : Except Failure (Box × Pixmap) :=
  let ⟨frame, data⟩ := p
  let clip := frame.clipRect
  match writeRuns frame.format.depth frame.stride v (s.runs clip) data with
  | .ok data => .ok (s.box.intersect clip, ⟨frame, data⟩)
  | .error e => .error e

/-- Draws a shape given in oriented coordinates. -/
def drawOriented (p : Pixmap) (s : Shape) (v : Pixel) : Except Failure (Box × Pixmap) :=
  p.draw (s.orient p.toFrame) v

/-- Writes a pixel inside the clip. -/
def put (p : Pixmap) (q : Point) (v : Pixel) : Except Failure Pixmap :=
  (p.draw (.point q) v).map Prod.snd

/-- Reads the pixel that an oriented point shows. -/
def getOriented (p : Pixmap) (q : Point) : Except Failure Pixel := p.get (p.transformPoint q)

end Pixmap

end Scanline

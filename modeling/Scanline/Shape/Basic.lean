import Scanline.Frame
import Scanline.Shape.Circle
import Scanline.Shape.Rect
import Scanline.Shape.Tetragon
/-! The shapes that can be drawn. Each has a box around it and its runs inside a clip, and each can
be moved from oriented coordinates to those of the buffer. -/

namespace Scanline

inductive Shape where
  | point (p : Point)
  | circle (center : Point) (r : Int)
  | disk (center : Point) (r : Int)
  | hline (x0 x1 y : Int)
  | vline (x y0 y1 : Int)
  | line (a b : Point)
  | rect (a b : Point)
  | solidRect (a b : Point)
  | tetragon (t : Tetragon)
  | solidTetragon (t : Tetragon)
deriving DecidableEq

namespace Shape

/-- The box around a shape. A negative radius leaves nothing to draw. -/
def box : Shape → Box
  | point p => Box.ofSize p.x p.y 1 1
  | circle c r | disk c r => Circle.box c r
  | hline x0 x1 y => Box.ofCorners ⟨x0, y⟩ ⟨x1, y⟩
  | vline x y0 y1 => Box.ofCorners ⟨x, y0⟩ ⟨x, y1⟩
  | line a b | rect a b | solidRect a b => Box.ofCorners a b
  | tetragon t | solidTetragon t => t.box

/-- The runs of a shape that meets the clip. -/
def runsIn (clip : Box) : Shape → List Run
  | point p => Run.dot clip p.x p.y
  | circle c r => Circle.outlineRuns clip c r
  | disk c r => Circle.diskRuns clip c r
  | hline x0 x1 y => Run.span clip x0 x1 y
  | vline x y0 y1 => Run.column clip x y0 y1
  | line a b => Line.runs clip a b
  | rect a b => Rect.outlineRuns clip a b
  | solidRect a b => Rect.solidRuns clip a b
  | tetragon t => t.outlineRuns clip
  | solidTetragon t => t.solidRuns clip

def runs (clip : Box) (s : Shape) : List Run :=
  if (s.box.intersect clip).isEmpty then [] else s.runsIn clip

/-- The shape in the buffer that an oriented shape shows. Lines along an axis may turn, so they
become rectangles of one row or column. -/
def orient (f : Frame) : Shape → Shape
  | point p => point (f.transformPoint p)
  | circle c r => circle (f.transformPoint c) r
  | disk c r => disk (f.transformPoint c) r
  | hline x0 x1 y => solidRect (f.transformPoint ⟨x0, y⟩) (f.transformPoint ⟨x1, y⟩)
  | vline x y0 y1 => solidRect (f.transformPoint ⟨x, y0⟩) (f.transformPoint ⟨x, y1⟩)
  | line a b => line (f.transformPoint a) (f.transformPoint b)
  | rect a b => rect (f.transformPoint a) (f.transformPoint b)
  | solidRect a b => solidRect (f.transformPoint a) (f.transformPoint b)
  | tetragon t => tetragon (t.map f.transformPoint)
  | solidTetragon t => solidTetragon (t.map f.transformPoint)

end Shape

end Scanline

import Scanline.Pixmap
/-! Looking at a pixmap as a whole: its cells row by row, those that are lit, and the bytes between
the pixels of a row and the next row. -/

namespace Scanline

namespace Frame

/-- The cells of the buffer, row by row. -/
def cells (f : Frame) : List (Nat × Nat) :=
  (List.range f.height).flatMap fun y => (List.range f.width).map fun x => (x, y)

theorem mem_cells {f : Frame} {c : Nat × Nat} : c ∈ f.cells ↔ c.1 < f.width ∧ c.2 < f.height := by
  simp only [cells, List.mem_flatMap, List.mem_map, List.mem_range]
  constructor
  · rintro ⟨y, hy, x, hx, rfl⟩
    exact ⟨hx, hy⟩
  · intro h
    exact ⟨c.2, h.2, c.1, h.1, rfl⟩

end Frame

namespace Pixmap

/-- The cells whose pixel is not zero. -/
def lit (p : Pixmap) : Except Failure (List (Nat × Nat)) :=
  p.cells.filterM fun c => return (← p.getRaw c.1 c.2) != 0

/-- The bytes between the pixels of row `y` and the next row. -/
def padding (p : Pixmap) (y : Nat) : Except Failure ByteArray :=
  slice p.data (p.rowStart y + p.rowBytes) (p.stride - p.rowBytes)

/-- Sets the padding of every row to one byte. -/
def fillPadding (p : Pixmap) (v : UInt8) : Except Failure Pixmap :=
  let bytes : ByteArray := ⟨Array.replicate (p.stride - p.rowBytes) v⟩
  (List.range p.height).foldlM (fun q y => q.setBytes (p.rowStart y + p.rowBytes) bytes) p

def paddingIs (p : Pixmap) (v : UInt8) : Except Failure Bool :=
  (List.range p.height).allM fun y => return (← p.padding y).toList.all (· == v)

end Pixmap

end Scanline

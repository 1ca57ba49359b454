import Scanline.Proofs.Pixmap.Draw
import Scanline.Proofs.Shape.Aligned
/-! Rectangles in pixmaps. A shape is known by its pixels and its box, so that shapes along the axes
which coincide are drawn alike, to the last bit of the buffer. -/

namespace Scanline.Pixmap

/-- Whatever the value, all the shapes are drawn, and with one outcome. -/
def DrawsAlike (p : Pixmap) (shapes : List Shape) : Prop :=
  ∀ v, ∃ answer, ∀ s ∈ shapes, p.draw s v = .ok answer

variable {p : Pixmap}

theorem Valid.drawsAlike (hp : p.Valid) {s : Shape} {shapes : List Shape}
    (h : ∀ s' ∈ shapes, s'.Coincides s) : p.DrawsAlike (s :: shapes) := by
  intro v
  obtain ⟨q, hq, -⟩ := hp.draw s v
  refine ⟨_, List.forall_mem_cons.mpr ⟨hq, ?_⟩⟩
  intro s' hs'
  rw [hp.draw_congr (h s' hs').pixels_eq (h s' hs').box_eq, hq]

/-- Rectangles and tetragons through the same corners are drawn alike, and so are the ways to give a
rectangle of one row or of one column. -/
theorem aligned_drawsAlike (hp : p.Valid) (x0 y0 x1 y1 : Int) :
    p.DrawsAlike [.solidRect ⟨x0, y0⟩ ⟨x1, y1⟩,
      .solidTetragon ⟨⟨x0, y0⟩, ⟨x1, y0⟩, ⟨x1, y1⟩, ⟨x0, y1⟩⟩] ∧
    p.DrawsAlike [.rect ⟨x0, y0⟩ ⟨x1, y1⟩,
      .tetragon ⟨⟨x0, y0⟩, ⟨x1, y0⟩, ⟨x1, y1⟩, ⟨x0, y1⟩⟩] ∧
    p.DrawsAlike [.solidRect ⟨x0, y0⟩ ⟨x1, y0⟩, .rect ⟨x0, y0⟩ ⟨x1, y0⟩,
      .line ⟨x0, y0⟩ ⟨x1, y0⟩, .hline x0 x1 y0] ∧
    p.DrawsAlike [.solidRect ⟨x0, y0⟩ ⟨x0, y1⟩, .rect ⟨x0, y0⟩ ⟨x0, y1⟩,
      .line ⟨x0, y0⟩ ⟨x0, y1⟩, .vline x0 y0 y1] := by
  refine ⟨hp.drawsAlike ?_, hp.drawsAlike ?_, hp.drawsAlike ?_, hp.drawsAlike ?_⟩
  · exact List.forall_mem_singleton.mpr (Shape.coincides_solidTetragon ⟨x0, y0⟩ ⟨x1, y1⟩)
  · exact List.forall_mem_singleton.mpr (Shape.coincides_tetragon ⟨x0, y0⟩ ⟨x1, y1⟩)
  · rw [List.forall_mem_cons, List.forall_mem_cons, List.forall_mem_singleton]
    exact ⟨Shape.coincides_rect (.inr rfl), Shape.coincides_line (.inr rfl),
      Shape.coincides_hline x0 x1 y0⟩
  · rw [List.forall_mem_cons, List.forall_mem_cons, List.forall_mem_singleton]
    exact ⟨Shape.coincides_rect (.inl rfl), Shape.coincides_line (.inl rfl),
      Shape.coincides_vline x0 y0 y1⟩

theorem aligned_drawsAlike_sample :
    (∃ answer, sample.draw (.rect ⟨5, 1⟩ ⟨-1, -3⟩) 7 = .ok answer ∧
      sample.draw (.tetragon ⟨⟨5, 1⟩, ⟨-1, 1⟩, ⟨-1, -3⟩, ⟨5, -3⟩⟩) 7 = .ok answer) ∧
    ∃ answer, sample.draw (.line ⟨1, 2⟩ ⟨1, -2⟩) 7 = .ok answer ∧
      sample.draw (.vline 1 2 (-2)) 7 = .ok answer := by
  obtain ⟨-, houtline, -, -⟩ := aligned_drawsAlike sample_valid 5 1 (-1) (-3)
  obtain ⟨-, -, -, hcolumn⟩ := aligned_drawsAlike sample_valid 1 2 0 (-2)
  obtain ⟨answer, hdraw⟩ := houtline 7
  obtain ⟨answer', hdraw'⟩ := hcolumn 7
  exact ⟨⟨answer, hdraw _ (by simp), hdraw _ (by simp)⟩,
    answer', hdraw' _ (by simp), hdraw' _ (by simp)⟩

end Scanline.Pixmap

import Scanline.Proofs.Box.Laws
import Scanline.Proofs.Pixmap.Draw
import Scanline.Proofs.Pixmap.Transform
/-! Oriented rectangles. The corners of a shape along the axes are taken to the buffer one by one,
where they may trade places or be clamped. What shows of the shape there is what the orientation
makes of its points, and the box that shows is what it makes of its box. -/

namespace Scanline

namespace Shape

/-- The shapes along the axes, each with two opposite corners. -/
inductive Aligned : Shape → Point → Point → Prop
  | point (q : Point) : Aligned (point q) q q
  | hline (x0 x1 y : Int) : Aligned (hline x0 x1 y) ⟨x0, y⟩ ⟨x1, y⟩
  | vline (x y0 y1 : Int) : Aligned (vline x y0 y1) ⟨x, y0⟩ ⟨x, y1⟩
  | rect (a b : Point) : Aligned (rect a b) a b
  | solidRect (a b : Point) : Aligned (solidRect a b) a b

/-- The points that show an oriented shape in the buffer are those of the shape that is drawn. -/
def Follows (f : Frame) (s : Shape) : Prop :=
  ∀ c ∈ f.orientedBounds, f.transformPoint c ∈ (s.orient f).pixels ↔ c ∈ s.pixels

variable {f : Frame} {s : Shape} {a b c : Point}

theorem Aligned.orient (h : s.Aligned a b) (f : Frame) :
    (s.orient f).Aligned (f.transformPoint a) (f.transformPoint b) := by
  cases h with
  | point q => exact .point _
  | hline x0 x1 y => exact .solidRect _ _
  | vline x y0 y1 => exact .solidRect _ _
  | rect a b => exact .rect _ _
  | solidRect a b => exact .solidRect _ _

theorem Aligned.mem_box (h : s.Aligned a b) (hc : c.OnScreen) :
    c ∈ s.box ↔ c ∈ Rect.solid a b := by
  cases h with
  | point q =>
    rw [box, Box.mem_ofSize, Rect.mem_solid]
    omega
  | hline x0 x1 y => exact Rect.mem_ofCorners_iff hc
  | vline x y0 y1 => exact Rect.mem_ofCorners_iff hc
  | rect a b => exact Rect.mem_ofCorners_iff hc
  | solidRect a b => exact Rect.mem_ofCorners_iff hc

theorem Aligned.follows (h : s.Aligned a b) (hw : (f.width : Int) ≤ coordMax)
    (hh : (f.height : Int) ≤ coordMax) : s.Follows f := by
  intro c hc
  cases h with
  | point q => exact Frame.transformPoint_eq_iff hw hh hc
  | hline x0 x1 y => exact Frame.transformPoint_mem_solid hw hh hc
  | vline x y0 y1 => exact Frame.transformPoint_mem_solid hw hh hc
  | rect a b => exact Frame.transformPoint_mem_outline hw hh hc
  | solidRect a b => exact Frame.transformPoint_mem_solid hw hh hc

end Shape

namespace Pixmap

/-- Seen through the orientation, the points of `S` inside the clip show the value and nothing else
has changed. -/
structure PaintedOriented (p q : Pixmap) (S : Set Point) (v : Pixel) : Prop where
  frame_eq : q.toFrame = p.toFrame
  size_eq : q.data.size = p.data.size
  painted : ∀ c, p.transformPoint c ∈ p.clipRect → c ∈ S →
    q.getOriented c = .ok (v &&& p.format.depth.mask)
  unpainted : ∀ c, p.transformPoint c ∈ p.clipRect → c ∉ S → q.getOriented c = p.getOriented c
  outside : ∀ c, c ∉ p.clipRect → q.get c = p.get c
  kept : ∀ k, (∀ c ∈ p.clipRect, ¬p.Owns c k) → bitAt q.data k = bitAt p.data k

variable {p : Pixmap} (hp : p.Valid) {s : Shape} {a b : Point}
include hp

theorem Valid.mem_orientedBounds_of_mem_clipRect {c : Point}
    (hc : p.transformPoint c ∈ p.clipRect) : c ∈ p.orientedBounds :=
  (Frame.transformPoint_mem_iff hp.width_le hp.height_le).mp (hp.mem_bounds_of_mem_clipRect hc)

theorem Valid.drawOriented (hs : s.Follows p.toFrame) (v : Pixel) :
    ∃ q, p.drawOriented s v = .ok ((s.orient p.toFrame).box.intersect p.clipRect, q) ∧
      PaintedOriented p q s.pixels v := by
  obtain ⟨q, hq, h⟩ := hp.draw (s.orient p.toFrame) v
  refine ⟨q, hq, h.frame_eq, h.size_eq, ?_, ?_, ?_, fun k hk => h.kept k fun c hc => hk c hc.1⟩
  · intro c hc hcs
    rw [getOriented, h.frame_eq]
    exact h.get_painted hp ⟨hc, (hs c (hp.mem_orientedBounds_of_mem_clipRect hc)).mpr hcs⟩
      (hp.mem_bounds_of_mem_clipRect hc)
  · intro c hc hcs
    rw [getOriented, getOriented, h.frame_eq]
    apply h.get_of_not_mem hp
    rintro ⟨-, hmem⟩
    exact hcs ((hs c (hp.mem_orientedBounds_of_mem_clipRect hc)).mp hmem)
  · intro c hc
    exact h.get_of_not_mem hp fun hmem => hc hmem.1

/-- A box and what the orientation makes of it hold the same of what is shown. -/
theorem Valid.box_orient (hs : s.Aligned a b) : (s.orient p.toFrame).box.intersect p.clipRect =
    (p.transformBox s.box).intersect p.clipRect := by
  apply Box.intersect_congr hp.clipRect_onScreen
  intro c hc
  obtain ⟨d, hd, rfl⟩ := (Frame.transformPoint_bijOn hp.width_le hp.height_le).surjOn
    (hp.mem_bounds_of_mem_clipRect hc)
  have hon : d.OnScreen := (hp.onScreen (Frame.mem_orientedBounds.mp hd)).of_turn
  rw [(hs.orient p.toFrame).mem_box (hp.clipRect_onScreen _ hc),
    Frame.transformPoint_mem_transformBox hp.width_le hp.height_le hd,
    Frame.transformPoint_mem_solid hp.width_le hp.height_le hd, hs.mem_box hon]

/-- An oriented point, line along an axis or rectangle is drawn as if the pixmap were upright: what
shows of it in the clip is the plain shape, and the answer is what the orientation makes of its
box. -/
theorem drawOriented_exact (hs : s.Aligned a b) (v : Pixel) :
    ∃ q, p.drawOriented s v = .ok ((p.transformBox s.box).intersect p.clipRect, q) ∧
      PaintedOriented p q s.pixels v := by
  rw [← hp.box_orient hs]
  exact hp.drawOriented (hs.follows hp.width_le hp.height_le) v

omit hp in
theorem drawOriented_exact_sample :
    ∃ q, sample.drawOriented (.rect ⟨coordMin, 1⟩ ⟨9, coordMax⟩) 7 = .ok (⟨1, 0, 1, 2⟩, q) ∧
      q.getOriented ⟨0, 1⟩ = .ok 3 ∧ q.getOriented ⟨1, 0⟩ = .ok 3 := by
  obtain ⟨q, hq, h⟩ := drawOriented_exact sample_valid (.rect ⟨coordMin, 1⟩ ⟨9, coordMax⟩) 7
  refine ⟨q, hq, h.painted ⟨0, 1⟩ (by decide) ?_, ?_⟩
  · exact Rect.mem_outline.mpr ⟨Rect.mem_solid.mpr (by decide), by decide⟩
  · have hout : (⟨1, 0⟩ : Point) ∉ Rect.outline ⟨coordMin, 1⟩ ⟨9, coordMax⟩ := by
      intro hmem
      exact absurd (Rect.mem_solid.mp hmem.1).2.2.1 (by decide)
    rw [h.unpainted ⟨1, 0⟩ (by decide) hout]
    rfl

end Pixmap

end Scanline

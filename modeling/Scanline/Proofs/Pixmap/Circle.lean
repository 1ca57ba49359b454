import Scanline.Proofs.Pixmap.Draw
import Scanline.Proofs.Shape.Outline
/-! Circles in pixmaps. However few columns of the octant are visited for a clip, a circle writes
what the whole walk has there in its eight mirrors. -/

namespace Scanline.Pixmap

variable {p : Pixmap} {c d : Point} {r : Int} {v : Pixel}

theorem draw_circle_of_neg (hr : r < 0) : p.draw (.circle c r) v = .ok (Box.empty, p) := by
  have hbox : (Shape.circle c r).box.intersect p.clipRect = Box.empty := by
    rw [Shape.box, Circle.box, if_pos hr, Box.intersect, Box.isEmpty_empty, Bool.true_or, if_pos rfl]
  rcases p with ⟨frame, data⟩
  rw [draw, Shape.runs, hbox, Box.isEmpty_empty, if_pos rfl]
  rfl

/-- What a circle writes are the pixels of the clip that the walk along its octant comes to, seen in
the eight mirrors: these show the value and no other bit changes. A negative radius draws nothing. -/
theorem draw_circle_exact (hp : p.Valid) (c : Point) (r : Int) (v : Pixel) :
    (∀ d, d ∈ Run.points ((Shape.circle c r).runs p.clipRect) ↔
      d ∈ p.clipRect ∧ ∃ a b, Circle.Walked r a b ∧ d ∈ Circle.images c a b) ∧
    (∃ q, p.draw (.circle c r) v = .ok ((Circle.box c r).intersect p.clipRect, q) ∧
      q.toFrame = p.toFrame ∧ q.data.size = p.data.size ∧
      (∀ a b, Circle.Walked r a b → ∀ d ∈ Circle.images c a b, d ∈ p.clipRect →
        q.get d = .ok (v &&& p.format.depth.mask)) ∧
      ∀ k, (∀ a b, Circle.Walked r a b → ∀ d ∈ Circle.images c a b, d ∈ p.clipRect → ¬p.Owns d k) →
        bitAt q.data k = bitAt p.data k) ∧
    (r < 0 → p.draw (.circle c r) v = .ok (Box.empty, p)) := by
  refine ⟨fun d => ?_, ?_, draw_circle_of_neg⟩
  · rw [Shape.mem_points_runs hp.clipRect_onScreen, Shape.pixels, Circle.mem_outline_iff_walked]
  · obtain ⟨q, hq, h⟩ := hp.draw (.circle c r) v
    refine ⟨q, hq, h.frame_eq, h.size_eq, ?_, ?_⟩
    · intro a b hw d hd hc
      have hin := hp.mem_bounds_of_mem_clipRect hc
      have hout : d ∈ (Shape.circle c r).pixels := Circle.mem_outline_iff_walked.mpr ⟨a, b, hw, hd⟩
      rw [(h.valid hp).get_eq (by rw [h.frame_eq]; exact hin), h.painted d ⟨hc, hout⟩ hin]
    · intro k hk
      apply h.kept
      rintro d ⟨hc, hout⟩
      obtain ⟨a, b, hw, hd⟩ := Circle.mem_outline_iff_walked.mp hout
      exact hk a b hw d hd hc

theorem draw_circle_exact_sample :
    Circle.Walked 2 1 2 ∧ (∃ q, sample.draw (.circle ⟨-1, 0⟩ 2) 7 = .ok (⟨0, 0, 2, 2⟩, q) ∧
      q.get ⟨1, 1⟩ = .ok 3 ∧ bitAt q.data 33 = bitAt sample.data 33) ∧
      sample.draw (.circle ⟨1, 1⟩ (-1)) 7 = .ok (Box.empty, sample) := by
  have hwalk : Circle.Walked 2 1 2 := ⟨2, by decide⟩
  refine ⟨hwalk, ?_, (draw_circle_exact sample_valid ⟨1, 1⟩ (-1) 7).2.2 (by decide)⟩
  obtain ⟨q, hq, -, -, hget, hkept⟩ := (draw_circle_exact sample_valid ⟨-1, 0⟩ 2 7).2.1
  refine ⟨q, hq, hget 1 2 hwalk ⟨1, 1⟩ ?_ (by decide), hkept 33 ?_⟩
  · exact ⟨1, 1, .inl rfl, .inl rfl, .inr rfl⟩
  · rintro a b - d - - ⟨hin, -, hlt⟩
    obtain ⟨-, hx, -, hy⟩ := Frame.mem_bounds.mp hin
    simp only [Frame.firstBit, Depth.firstBit, sample, Format.g2, Depth.bits] at hx hy hlt
    omega

end Scanline.Pixmap

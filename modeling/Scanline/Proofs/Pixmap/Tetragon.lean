import Scanline.Proofs.Pixmap.Draw
import Scanline.Proofs.Shape.EvenOdd
/-! Solid tetragons in pixmaps. Whatever the corners, a row is filled between its crossings two by
two, and the outcome does not depend on where the sides start or which way round they go. -/

namespace Scanline.Pixmap

variable {p : Pixmap}

theorem Valid.draw_turned (hp : p.Valid) (t : Tetragon) (n : Nat) (v : Pixel) :
    p.draw (.solidTetragon (Tetragon.turn^[n] t)) v = p.draw (.solidTetragon t) v := by
  induction n with
  | zero => rfl
  | succ n ih =>
    rw [Function.iterate_succ_apply', ← ih]
    apply hp.draw_congr
    · exact Tetragon.solid_turn _
    · exact Tetragon.box_turn _

/-- A row crosses none, two or four sides of a tetragon, and all crossings are taken two by two. What
is filled are the outline and the columns from an odd crossing to the next, both rounded, and
these include all that the even-odd rule encloses. Turning or reversing the corners changes nothing. -/
theorem solidTetragon_exact (t : Tetragon) :
    (∀ y, (t.sides.countP (Tetragon.crosses y) = 0 ∨ t.sides.countP (Tetragon.crosses y) = 2 ∨
        t.sides.countP (Tetragon.crosses y) = 4) ∧
      (t.crossings y).length = t.sides.countP (Tetragon.crosses y) ∧
      (Tetragon.pairs (t.crossings y)).flatMap (fun q => [q.1, q.2]) = t.crossings y ∧
      (t.exactCrossings y).Pairwise (· ≤ ·)) ∧
    ∀ p : Pixmap, p.Valid →
      p.Writes (.solidTetragon t) {d | d ∈ p.clipRect ∧ (d ∈ t.outline ∨
        ∃ i left right, (t.exactCrossings d.y)[2 * i]? = some left ∧
          (t.exactCrossings d.y)[2 * i + 1]? = some right ∧
          halfUp left ≤ d.x ∧ d.x ≤ halfUp right)} ∧
      (∀ d ∈ p.clipRect, t.Encloses d →
        d ∈ Run.points ((Shape.solidTetragon t).runs p.clipRect)) ∧
      ∀ n v, p.draw (.solidTetragon (Tetragon.turn^[n] t)) v = p.draw (.solidTetragon t) v ∧
        p.draw (.solidTetragon (Tetragon.turn^[n] t).reverse) v = p.draw (.solidTetragon t) v := by
  refine ⟨fun y => ⟨t.countP_crosses y, ?_, t.flatten_crossings y, t.exactCrossings_sorted y⟩, ?_⟩
  · rw [t.crossings_eq_map, List.length_map, t.length_exactCrossings]
  intro p hp
  refine ⟨?_, ?_, ?_⟩
  · simp only [← Tetragon.mem_inner_iff]
    exact hp.writes (.solidTetragon t)
  · intro d hd henclosed
    rw [(hp.writes (.solidTetragon t)).points_eq]
    exact ⟨hd, .inr (Tetragon.mem_inner_of_encloses henclosed)⟩
  · intro n v
    refine ⟨hp.draw_turned t n v, ?_⟩
    rw [← hp.draw_turned t n v]
    apply hp.draw_congr
    · exact Tetragon.solid_reverse _
    · exact Tetragon.box_reverse _

/-- Two triangles that meet where two of the sides cross. -/
def bowtie : Tetragon := ⟨⟨-1, -1⟩, ⟨4, 4⟩, ⟨4, -1⟩, ⟨-1, 4⟩⟩

theorem solidTetragon_exact_bowtie :
    bowtie.Encloses ⟨0, 1⟩ ∧
    (⟨0, 1⟩ : Point) ∈ Run.points ((Shape.solidTetragon bowtie).runs sample.clipRect) ∧
    sample.draw (.solidTetragon (Tetragon.turn^[3] bowtie).reverse) 7 =
      sample.draw (.solidTetragon bowtie) 7 := by
  have henclosed : bowtie.Encloses ⟨0, 1⟩ := .inl (by decide +kernel)
  obtain ⟨-, hdraws⟩ := solidTetragon_exact bowtie
  obtain ⟨-, hinside, horders⟩ := hdraws sample sample_valid
  exact ⟨henclosed, hinside ⟨0, 1⟩ (by decide) henclosed, (horders 3 7).2⟩

end Scanline.Pixmap

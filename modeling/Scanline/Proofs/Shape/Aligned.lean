import Scanline.Proofs.Shape.Pixels
/-! Shapes along the axes. A rectangle may be given by its two corners, as a tetragon or, where it
is one row or column wide, as a line. However differently the runs of these shapes are found, they
have the same pixels and the same box. -/

namespace Scanline

namespace Rect
variable {a b p : Point}

theorem outline_eq_solid (h : a.x = b.x ∨ a.y = b.y) : outline a b = solid a b := by
  ext p
  rw [mem_outline, and_iff_left_iff_imp]
  intro hp
  rw [mem_solid] at hp
  omega

end Rect

namespace Line
variable {a b p : Point}

theorem pixels_eq_solid (h : a.x = b.x ∨ a.y = b.y) : pixels a b = Rect.solid a b := by
  ext p
  rcases h with hx | hy
  · exact mem_pixels_of_x_eq hx
  · exact mem_pixels_of_y_eq hy

/-- The row of a rectangle that one of its corners lies in. -/
theorem mem_pixels_row : p ∈ pixels a ⟨b.x, a.y⟩ ↔ p ∈ Rect.solid a b ∧ p.y = a.y := by
  rw [mem_pixels_of_y_eq (a := a) (b := ⟨b.x, a.y⟩) rfl, Rect.mem_solid, Rect.mem_solid]
  dsimp only
  omega

theorem mem_pixels_column : p ∈ pixels ⟨a.x, b.y⟩ a ↔ p ∈ Rect.solid a b ∧ p.x = a.x := by
  rw [mem_pixels_of_x_eq (a := ⟨a.x, b.y⟩) (b := a) rfl, Rect.mem_solid, Rect.mem_solid]
  dsimp only
  omega

end Line

namespace Tetragon

/-- The rectangle through two opposite corners. -/
def ofCorners (a b : Point) : Tetragon := ⟨a, ⟨b.x, a.y⟩, b, ⟨a.x, b.y⟩⟩

variable {y : Int} {side : Point × Point}

theorem outline_ofCorners (a b : Point) : (ofCorners a b).outline = Rect.outline a b := by
  ext p
  simp only [mem_outline, sides, ofCorners, List.mem_cons, List.not_mem_nil, or_false,
    exists_eq_or_imp, exists_eq_left]
  rw [Line.mem_pixels_row, Line.mem_pixels_column, Line.mem_pixels_row, Line.mem_pixels_column,
    Rect.solid_comm b a, Rect.mem_outline]
  tauto

theorem crossing_of_x_eq (hx : side.1.x = side.2.x) (h : crosses y side = true) :
    crossing y side = side.1.x := by
  have hmem := Rect.mem_solid.mp (crossing_mem_solid h)
  dsimp only at hmem
  omega

theorem crossings_ofCorners (a b : Point) (h : min a.y b.y ≤ y) (h' : y < max a.y b.y) :
    (ofCorners a b).crossings y = [min a.x b.x, max a.x b.x] := by
  have hup : crosses y (⟨b.x, a.y⟩, b) = true := crosses_iff.mpr ⟨h, h'⟩
  have hdown : crosses y (⟨a.x, b.y⟩, a) = true := crosses_iff.mpr (by dsimp only; omega)
  have htop : crosses y (a, ⟨b.x, a.y⟩) = false := by simp [crosses]
  have hbottom : crosses y (b, ⟨a.x, b.y⟩) = false := by simp [crosses]
  have hcolumns : ((ofCorners a b).sides.filter (crosses y)).map (crossing y) = [b.x, a.x] := by
    simp only [sides, ofCorners, List.filter_cons, htop, hup, hbottom, hdown, List.filter_nil,
      Bool.false_eq_true, if_true, if_false, List.map_cons, List.map_nil]
    rw [crossing_of_x_eq rfl hup, crossing_of_x_eq rfl hdown]
  apply List.Perm.eq_of_pairwise' ((ofCorners a b).crossings_sorted y)
  · exact List.pairwise_pair.mpr (by omega)
  · rw [crossings, hcolumns]
    refine (List.mergeSort_perm _ _).trans ?_
    rcases Int.le_total b.x a.x with hle | hle
    · rw [Int.min_eq_right hle, Int.max_eq_left hle]
    · rw [Int.min_eq_left hle, Int.max_eq_right hle]
      exact .swap _ _ _

theorem solid_ofCorners (a b : Point) : (ofCorners a b).solid = Rect.solid a b := by
  apply Set.Subset.antisymm
  · intro p hp
    have haround := mem_around.mp (solid_subset_around hp)
    simp only [least, greatest, ofCorners] at haround
    rw [Rect.mem_solid]
    omega
  · intro p hp
    obtain ⟨hleft, hright, htop, hbottom⟩ := Rect.mem_solid.mp hp
    -- The last row is not crossed, but one of the sides lies in it.
    by_cases hrow : p.y < max a.y b.y
    · refine .inr (mem_inner.mpr ⟨(min a.x b.x, max a.x b.x), ?_, hleft, hright⟩)
      rw [crossings_ofCorners a b htop hrow]
      exact List.mem_singleton_self _
    · left
      rw [outline_ofCorners]
      exact ⟨hp, by omega⟩

theorem box_ofCorners (a b : Point) : (ofCorners a b).box = Box.ofCorners a b := by
  simp only [box, Box.ofCorners, ofCorners, least, greatest]
  congr 1
  all_goals omega

end Tetragon

namespace Shape

/-- The shapes have the same pixels and the same box. -/
structure Coincides (s s' : Shape) : Prop where
  pixels_eq : s.pixels = s'.pixels
  box_eq : s.box = s'.box

variable {a b : Point}

theorem coincides_tetragon (a b : Point) : (tetragon (.ofCorners a b)).Coincides (rect a b) :=
  ⟨Tetragon.outline_ofCorners a b, Tetragon.box_ofCorners a b⟩

theorem coincides_solidTetragon (a b : Point) :
    (solidTetragon (.ofCorners a b)).Coincides (solidRect a b) :=
  ⟨Tetragon.solid_ofCorners a b, Tetragon.box_ofCorners a b⟩

theorem coincides_rect (h : a.x = b.x ∨ a.y = b.y) : (rect a b).Coincides (solidRect a b) :=
  ⟨Rect.outline_eq_solid h, rfl⟩

theorem coincides_line (h : a.x = b.x ∨ a.y = b.y) : (line a b).Coincides (solidRect a b) :=
  ⟨Line.pixels_eq_solid h, rfl⟩

theorem coincides_hline (x0 x1 y : Int) :
    (hline x0 x1 y).Coincides (solidRect ⟨x0, y⟩ ⟨x1, y⟩) := ⟨rfl, rfl⟩

theorem coincides_vline (x y0 y1 : Int) :
    (vline x y0 y1).Coincides (solidRect ⟨x, y0⟩ ⟨x, y1⟩) := ⟨rfl, rfl⟩

end Shape

end Scanline

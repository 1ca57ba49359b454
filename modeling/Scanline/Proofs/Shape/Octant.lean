import Scanline.Proofs.Shape.Midpoint
/-! The walk along the octant and the direct solution are one circle. The error term of the walk is
the test of the next midpoint in closed form, so that the walk goes through the solved heights, and
it leaves the octant where the solution has its last column. The rows of a disk follow the walk. -/

namespace Scanline

section Yields
variable {σ α : Type} {next? : σ → Option (α × σ)}

/-- A sequence given by its steps has exactly these values and then ends. -/
inductive Yields (next? : σ → Option (α × σ)) : σ → List α → Prop where
  | done {s : σ} : next? s = none → Yields next? s []
  | step {s s' : σ} {a : α} {rest : List α} :
      next? s = some (a, s') → Yields next? s' rest → Yields next? s (a :: rest)

theorem Yields.takeSteps_eq {s : σ} {values : List α} (h : Yields next? s values) (n : Nat) :
    (Circle.takeSteps next? n s).1 = values.take n := by
  induction h generalizing n with
  | done hs =>
    cases n with
    | zero => rfl
    | succ n => rw [Circle.takeSteps, hs, List.take_nil]
  | step hs _ ih =>
    cases n with
    | zero => rfl
    | succ n =>
      rw [Circle.takeSteps, hs, List.take_succ_cons]
      exact congrArg _ (ih n)

theorem Yields.exists_mem_takeSteps {s : σ} {values : List α} (h : Yields next? s values) {a : α} :
    (∃ n, a ∈ (Circle.takeSteps next? n s).1) ↔ a ∈ values := by
  constructor
  · rintro ⟨n, hn⟩
    rw [h.takeSteps_eq] at hn
    exact List.mem_of_mem_take hn
  · intro ha
    refine ⟨values.length, ?_⟩
    rw [h.takeSteps_eq, List.take_length]
    exact ha

end Yields

namespace Circle
variable {r : Int}

namespace Walk
variable {w : Walk}

/-- The walk one column on. -/
def advance (w : Walk) : Walk :=
  if w.err < 0 then ⟨w.x + 1, w.y, w.err + (2 * (w.x + 1) + 1)⟩
  else ⟨w.x + 1, w.y - 1, w.err + (2 * (w.x + 1 - (w.y - 1)) + 1)⟩

theorem next?_eq_some (h : w.x ≤ w.y) : w.next? = some ((w.x, w.y), w.advance) := by
  rw [next?, if_neg (by omega), advance]
  split
  · rfl
  · rfl

theorem next?_eq_none (h : w.y < w.x) : w.next? = none := by
  rw [next?, if_pos h]

@[simp] theorem advance_x (w : Walk) : w.advance.x = w.x + 1 := by
  rw [advance]
  split
  · rfl
  · rfl

theorem advance_y (w : Walk) : w.advance.y = if w.err < 0 then w.y else w.y - 1 := by
  rw [advance]
  split
  · rfl
  · rfl

theorem advance_y_eq_iff : w.advance.y = w.y ↔ w.err < 0 := by
  rw [advance_y]
  split
  · exact iff_of_true rfl ‹_›
  · exact iff_of_false (by omega) ‹_›

/-- Where a walk from the top of a circle can be. -/
structure OnCircle (r : Int) (w : Walk) : Prop where
  x_nonneg : 0 ≤ w.x
  err_eq : w.err = (w.x + 1) * (w.x + 1) + w.y * w.y - w.y - r * r
  le_iff : w.x ≤ w.y ↔ w.x ≤ octantEnd r
  height : w.x ≤ w.y → 0 < w.y ∧ octantHeight r w.x = w.y

/-- The error term tests the midpoint below the height in the next column. -/
theorem OnCircle.err_neg_iff (h : OnCircle r w) :
    w.err < 0 ↔ inside r (w.x + 1) w.y = true := by
  have hsq : (2 * w.y - 1) * (2 * w.y - 1) = 4 * (w.y * w.y) - 4 * w.y + 1 := by ring
  rw [h.err_eq]
  constructor
  · exact fun hneg => inside_of_le (by omega)
  · intro hin
    rw [inside_iff] at hin
    omega

section Advance
variable (hr : 0 < r) (h : OnCircle r w) (hle : w.x ≤ w.y)
include hr h hle

theorem OnCircle.inside_height : inside r w.x w.y = true := by
  obtain ⟨hpos, hheight⟩ := h.height hle
  exact (le_octantHeight_iff hr h.x_nonneg hpos).mp (Int.le_of_eq hheight.symm)

theorem OnCircle.not_inside_above : ¬inside r w.x (w.y + 1) = true := by
  obtain ⟨hpos, hheight⟩ := h.height hle
  rw [← le_octantHeight_iff hr h.x_nonneg (by omega)]
  omega

/-- Before the diagonal is reached, one column on is at most one row down. -/
theorem OnCircle.inside_below (hgap : w.x + 2 ≤ w.y) :
    inside r (w.x + 1) (w.y - 1) = true := by
  have hin := inside_iff.mp (h.inside_height hr hle)
  apply inside_of_le
  have hdiff : 4 * ((w.x + 1) * (w.x + 1)) + (2 * (w.y - 1) - 1) * (2 * (w.y - 1) - 1) =
      4 * (w.x * w.x) + (2 * w.y - 1) * (2 * w.y - 1) + (8 * w.x - 8 * w.y + 12) := by ring
  omega

theorem OnCircle.advance_height (hle' : w.advance.x ≤ w.advance.y) :
    0 < w.advance.y ∧ octantHeight r w.advance.x = w.advance.y := by
  have hx := h.x_nonneg
  rw [advance_x] at hle' ⊢
  by_cases herr : w.err < 0
  · have hy : w.advance.y = w.y := advance_y_eq_iff.mpr herr
    rw [hy] at hle' ⊢
    refine ⟨by omega, octantHeight_eq hr (by omega) (by omega) (h.err_neg_iff.mp herr) ?_⟩
    exact fun hin => h.not_inside_above hr hle
      (inside_mono hx (by omega) (by omega) (Int.le_refl _) hin)
  · have hy : w.advance.y = w.y - 1 := by rw [advance_y, if_neg herr]
    rw [hy] at hle' ⊢
    refine ⟨by omega, octantHeight_eq hr (by omega) (by omega)
      (h.inside_below hr hle (by omega)) ?_⟩
    rw [Int.sub_add_cancel]
    exact fun hin => herr (h.err_neg_iff.mpr hin)

theorem OnCircle.advance_le_iff :
    w.advance.x ≤ w.advance.y ↔ w.advance.x ≤ octantEnd r := by
  have hx := h.x_nonneg
  obtain ⟨hpos, hheight⟩ := h.height hle
  constructor
  · intro hle'
    obtain ⟨hpos', hheight'⟩ := h.advance_height hr hle hle'
    rw [advance_x] at hle' hheight' ⊢
    rw [le_octantEnd_iff hr (by omega)]
    apply inside_mono (by omega) (Int.le_refl _) (by omega) hle'
    rw [← le_octantHeight_iff hr (by omega) hpos']
    omega
  · rw [advance_x, le_octantEnd_iff hr (by omega)]
    intro hin
    -- The column is inside on the diagonal, so the height left of it reaches the diagonal too.
    have hreach : w.x + 1 ≤ w.y := by
      rw [← hheight, le_octantHeight_iff hr hx (by omega)]
      exact inside_mono hx (by omega) (by omega) (Int.le_refl _) hin
    by_cases herr : w.err < 0
    · rw [advance_y, if_pos herr]
      exact hreach
    · have hne : w.x + 1 ≠ w.y := by
        intro heq
        rw [heq] at hin
        exact herr (h.err_neg_iff.mpr (by rw [heq]; exact hin))
      rw [advance_y, if_neg herr]
      omega

theorem OnCircle.advance : OnCircle r w.advance := by
  have hx := h.x_nonneg
  refine ⟨by rw [advance_x]; omega, ?_, h.advance_le_iff hr hle, h.advance_height hr hle⟩
  rw [Walk.advance]
  split
  · rw [h.err_eq]
    ring
  · rw [h.err_eq]
    ring

end Advance

theorem onCircle_start (hr : 0 < r) : OnCircle r (start r) := by
  have hend := octantEnd_bounds (Int.le_of_lt hr)
  have hheight : octantHeight r 0 = r := by
    apply octantHeight_eq hr (Int.le_refl 0) hr
    · exact inside_of_le (by linarith)
    · exact fun hin => absurd (le_of_inside hr hin).2 (by omega)
  refine ⟨Int.le_refl 0, ?_, ?_, fun _ => ⟨hr, hheight⟩⟩
  · simp only [start]
    ring
  · exact iff_of_true (Int.le_of_lt hr) hend.1

/-- A walk goes on through the solved heights up to the last column of the octant. -/
theorem OnCircle.yields (hr : 0 < r) (h : OnCircle r w) :
    Yields next? w ((intRange w.x (octantEnd r)).map fun x => (x, octantHeight r x)) := by
  obtain ⟨n, hn⟩ : ∃ n : Nat, (octantEnd r + 1 - w.x).toNat = n := ⟨_, rfl⟩
  induction n generalizing w with
  | zero =>
    rw [intRange_eq_nil (by omega)]
    exact .done (next?_eq_none (by have := h.le_iff; omega))
  | succ n ih =>
    have hlast : w.x ≤ octantEnd r := by omega
    have hle := h.le_iff.mpr hlast
    have hrest := ih (h.advance hr hle) (by rw [advance_x]; omega)
    rw [advance_x] at hrest
    rw [intRange_eq_cons hlast, List.map_cons, (h.height hle).2]
    exact .step (next?_eq_some hle) hrest

end Walk

namespace Rows
variable {w : Walk}

/-- The row of a column is followed by the row of its height, where the walk steps down from a
height off the diagonal. -/
theorem next?_eq (h : w.x ≤ w.y) :
    next? ⟨w, none⟩ = some ((w.x, w.y),
      ⟨w.advance, if w.advance.y ≠ w.y ∧ w.x ≠ w.y then some (w.y, w.x) else none⟩) := by
  simp only [next?, Walk.next?_eq_some h]
  by_cases hle : w.advance.x ≤ w.advance.y
  · simp only [Walk.next?_eq_some hle, bne_iff_ne, Bool.and_eq_true]
  · -- A walk that ends without a step down ends on the diagonal.
    have hiff : w.advance.y ≠ w.y ∧ w.x ≠ w.y ↔ w.x ≠ w.y := by
      rw [Walk.advance_x] at hle
      omega
    simp only [Walk.next?_eq_none (Int.not_le.mp hle), Bool.true_and, bne_iff_ne]
    rw [if_congr hiff rfl rfl]

/-- The row of the disk at a distance from the center. -/
def row (r dy : Int) : Int × Int := (dy, halfWidth r (octantEnd r) dy)

section OnCircle
variable (hr : 0 < r) (h : w.OnCircle r) (hle : w.x ≤ w.y)
include hr h hle

theorem row_column : row r w.x = (w.x, w.y) := by
  rw [row, halfWidth, if_neg (by omega), if_pos (h.le_iff.mp hle), (h.height hle).2]

/-- A height off the diagonal that the walk steps down from lies past the last column. -/
theorem last_lt_height (hdown : w.advance.y ≠ w.y) (hne : w.x ≠ w.y) : octantEnd r < w.y := by
  have hx := h.x_nonneg
  have hlast := h.le_iff.mp hle
  by_cases hmore : w.x + 1 ≤ octantEnd r
  · have hend := (le_octantEnd_iff hr (by omega : 0 < octantEnd r)).mp (Int.le_refl _)
    have hle' := (h.advance_le_iff hr hle).mpr (by rw [Walk.advance_x]; exact hmore)
    have hheight := (h.advance_height hr hle hle').2
    have hreach : octantEnd r ≤ w.advance.y := by
      rw [← hheight, Walk.advance_x, le_octantHeight_iff hr (by omega) (by omega)]
      exact inside_mono (by omega) hmore (by omega) (Int.le_refl _) hend
    rw [Walk.advance_y, if_neg (mt Walk.advance_y_eq_iff.mpr hdown)] at hreach
    omega
  · omega

theorem row_height (hdown : w.advance.y ≠ w.y) (hne : w.x ≠ w.y) : row r w.y = (w.y, w.x) := by
  have hx := h.x_nonneg
  have hend := octantEnd_bounds (Int.le_of_lt hr)
  have hpast := last_lt_height hr h hle hdown hne
  have hlt := mt (le_halfWidth_iff hr hend.1 hpast (a := w.x + 1) (by omega)).mp
    (mt h.err_neg_iff.mpr (mt Walk.advance_y_eq_iff.mpr hdown))
  have hge : w.x ≤ halfWidth r (octantEnd r) w.y := by
    rcases Int.lt_or_eq_of_le hx with hpos | hzero
    · exact (le_halfWidth_iff hr hend.1 hpast hpos).mpr (h.inside_height hr hle)
    · rw [← hzero]
      exact (halfWidth_bounds (Int.le_of_lt hr) _ _).1
  rw [row]
  congr 1
  omega

end OnCircle

/-- The rows of a walk are those of the columns to come and those of the heights past the octant
that are not passed yet. -/
theorem yields (hr : 0 < r) (h : w.OnCircle r) (hx : w.x ≤ octantEnd r + 1) :
    ∃ rows, Yields next? ⟨w, none⟩ rows ∧
      rows.Perm ((intRange w.x (octantEnd r) ++ intRange (octantEnd r + 1) w.y).map (row r)) := by
  obtain ⟨n, hn⟩ : ∃ n : Nat, (octantEnd r + 1 - w.x).toNat = n := ⟨_, rfl⟩
  induction n generalizing w with
  | zero =>
    have hlt : w.y < w.x := by have := h.le_iff; omega
    refine ⟨[], .done ?_, ?_⟩
    · simp only [next?, Walk.next?_eq_none hlt]
    · rw [intRange_eq_nil (by omega), intRange_eq_nil (by omega)]
      exact .nil
  | succ n ih =>
    have hle := h.le_iff.mpr (show w.x ≤ octantEnd r by omega)
    obtain ⟨rows, hrows, hperm⟩ := ih (h.advance hr hle) (by rw [Walk.advance_x]; omega)
      (by rw [Walk.advance_x]; omega)
    have hstep := next?_eq hle
    rw [Walk.advance_x] at hperm
    rw [intRange_eq_cons (show w.x ≤ octantEnd r by omega), List.cons_append, List.map_cons,
      row_column hr h hle]
    by_cases hdown : w.advance.y ≠ w.y ∧ w.x ≠ w.y
    · have hpast := last_lt_height hr h hle hdown.1 hdown.2
      have hy : w.advance.y = w.y - 1 := by
        rw [Walk.advance_y, if_neg (mt Walk.advance_y_eq_iff.mpr hdown.1)]
      rw [if_pos hdown] at hstep
      refine ⟨(w.x, w.y) :: (w.y, w.x) :: rows, .step hstep (.step rfl hrows), .cons _ ?_⟩
      rw [intRange_eq_concat (show octantEnd r + 1 ≤ w.y by omega), ← List.append_assoc,
        List.map_append, List.map_singleton, row_height hr h hle hdown.1 hdown.2, ← hy]
      exact (List.Perm.cons _ hperm).trans (List.perm_append_singleton _ _).symm
    · rw [if_neg hdown] at hstep
      have hrange : intRange (octantEnd r + 1) w.advance.y = intRange (octantEnd r + 1) w.y := by
        by_cases hflat : w.advance.y = w.y
        · rw [hflat]
        · have hy : w.advance.y = w.y - 1 := by
            rw [Walk.advance_y, if_neg (mt Walk.advance_y_eq_iff.mpr hflat)]
          rw [intRange_eq_nil (by omega), intRange_eq_nil (by omega)]
      rw [← hrange]
      exact ⟨(w.x, w.y) :: rows, .step hstep hrows, .cons _ hperm⟩

end Rows

/-- The walk along the octant goes through the solved heights in the order of their columns, and the
rows of the disk have the solved widths, one row at each distance from the center. A negative
radius leaves both without values. -/
theorem walk_eq_solution (r : Int) :
    (0 ≤ r →
      Yields Walk.next? (Walk.start r)
        ((intRange 0 (octantEnd r)).map fun x => (x, octantHeight r x)) ∧
      ∃ rows, Yields Rows.next? (Rows.start r) rows ∧
        rows.Perm ((intRange 0 r).map fun dy => (dy, halfWidth r (octantEnd r) dy))) ∧
    (r < 0 → Yields Walk.next? (Walk.start r) [] ∧ Yields Rows.next? (Rows.start r) []) := by
  refine ⟨fun hr => ?_, fun hr => ?_⟩
  · rcases Int.lt_or_eq_of_le hr with hpos | rfl
    · have h := Walk.onCircle_start hpos
      have hend := octantEnd_bounds hr
      obtain ⟨rows, hrows, hperm⟩ := Rows.yields hpos h (by simp only [Walk.start]; omega)
      refine ⟨h.yields hpos, rows, hrows, ?_⟩
      rw [← intRange_append (show (0 : Int) ≤ octantEnd r + 1 by omega) hend.2]
      exact hperm
    · exact ⟨.step rfl (.done rfl), _, .step rfl (.done rfl), .refl _⟩
  · have hwalk : (Walk.start r).next? = none := Walk.next?_eq_none hr
    exact ⟨.done hwalk, .done (by simp only [Rows.start, Rows.next?, hwalk])⟩

theorem walk_eq_solution_two :
    Yields Walk.next? (Walk.start 2) [(0, 2), (1, 2)] ∧
    (∃ rows, Yields Rows.next? (Rows.start 2) rows ∧ rows.Perm [(0, 2), (1, 2), (2, 1)]) ∧
    Yields Walk.next? (Walk.start (-1)) [] := by
  have hheights : (intRange 0 (octantEnd 2)).map (fun x => (x, octantHeight 2 x)) =
      [(0, 2), (1, 2)] := by decide +kernel
  have hwidths : (intRange 0 2).map (fun dy => (dy, halfWidth 2 (octantEnd 2) dy)) =
      [(0, 2), (1, 2), (2, 1)] := by decide +kernel
  obtain ⟨hwalk, hrows⟩ := (walk_eq_solution 2).1 (by decide)
  rw [hheights] at hwalk
  rw [hwidths] at hrows
  exact ⟨hwalk, hrows, ((walk_eq_solution (-1)).2 (by decide)).1⟩

end Circle

end Scanline

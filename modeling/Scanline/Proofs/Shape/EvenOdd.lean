import Mathlib.Algebra.Ring.Parity
import Mathlib.Data.List.Induction
import Scanline.Proofs.Shape.Slope
import Scanline.Proofs.Shape.Tetragon
/-! Tetragons and the even-odd rule. A row crosses an even number of sides, so all crossings are
taken two by two, and rounding them to columns does not change their order. What lies between them
does not depend on the corner at which the sides start, nor on the direction they are gone round. -/

namespace Scanline.Tetragon

section Lists
variable {α : Type}

theorem even_length_tail {x y : α} {rest : List α} (h : Even (x :: y :: rest).length) :
    Even rest.length := by
  rwa [List.length_cons, List.length_cons, Nat.even_add_one, Nat.even_add_one, not_not] at h

theorem mem_pairs_iff {xs : List Int} {q : Int × Int} :
    q ∈ pairs xs ↔ ∃ i, xs[2 * i]? = some q.1 ∧ xs[2 * i + 1]? = some q.2 := by
  fun_induction pairs xs with
  | case1 x y rest ih =>
    rw [List.mem_cons, ih]
    constructor
    · rintro (rfl | ⟨i, hi, hi'⟩)
      · exact ⟨0, rfl, rfl⟩
      · exact ⟨i + 1, hi, hi'⟩
    · rintro ⟨i, hi, hi'⟩
      cases i with
      | zero => exact .inl (Prod.ext (Option.some.inj hi).symm (Option.some.inj hi').symm)
      | succ i => exact .inr ⟨i, hi, hi'⟩
  | case2 xs hxs =>
    refine iff_of_false List.not_mem_nil ?_
    rintro ⟨i, -, hi⟩
    rcases xs with _ | ⟨x, _ | ⟨y, rest⟩⟩
    · cases hi
    · cases hi
    · exact hxs x y rest rfl

theorem flatten_pairs {xs : List Int} (h : Even xs.length) :
    (pairs xs).flatMap (fun q => [q.1, q.2]) = xs := by
  fun_induction pairs xs with
  | case1 x y rest ih =>
    rw [List.flatMap_cons, ih (even_length_tail h)]
    rfl
  | case2 xs hxs =>
    rcases xs with _ | ⟨x, _ | ⟨y, rest⟩⟩
    · rfl
    · exact absurd h Nat.not_even_one
    · exact absurd rfl (hxs x y rest)

/-- A test that holds on a first part of an even list, and there an odd number of times, changes
between the two members of a pair. -/
theorem exists_pair_of_odd {test : α → Bool} {xs : List α}
    (hs : xs.Pairwise fun a b => test b = true → test a = true) (heven : Even xs.length)
    (hodd : Odd (xs.countP test)) : ∃ i a b, xs[2 * i]? = some a ∧ xs[2 * i + 1]? = some b ∧
      test a = true ∧ test b = false := by
  induction xs using List.twoStepInduction with
  | nil => exact absurd hodd Nat.not_odd_zero
  | singleton x => exact absurd heven Nat.not_even_one
  | cons_cons x y rest ih _ =>
    obtain ⟨hx, hrest⟩ := List.pairwise_cons.mp hs
    obtain ⟨hy, hrest⟩ := List.pairwise_cons.mp hrest
    rw [List.countP_cons, List.countP_cons] at hodd
    cases hty : test y with
    | true =>
      have htx : test x = true := hx y List.mem_cons_self hty
      rw [if_pos htx, if_pos hty] at hodd
      have hodd' : Odd (rest.countP test) := by
        rwa [Nat.odd_add_one, Nat.not_odd_iff_even, Nat.even_add_one, Nat.not_even_iff_odd] at hodd
      obtain ⟨i, a, b, ha, hb, hab⟩ := ih hrest (even_length_tail heven) hodd'
      exact ⟨i + 1, a, b, ha, hb, hab⟩
    | false =>
      have hnone : rest.countP test = 0 := by
        apply List.countP_eq_zero.mpr
        intro z hz htz
        rw [hy z hz htz] at hty
        exact Bool.noConfusion hty
      have htx : test x = true := by
        by_contra htx
        rw [hnone, if_neg htx, if_neg (by rw [hty]; exact Bool.false_ne_true)] at hodd
        exact Nat.not_odd_zero hodd
      exact ⟨0, x, y, rfl, rfl, htx, hty⟩

end Lists

/-- Where a side crosses row `y`, exactly. -/
def exactCrossing (y : Int) (side : Point × Point) : ℚ :=
  Line.valueAt side.1.y side.1.x side.2.y side.2.x y

/-- Where the sides cross row `y`, exactly and in order. -/
def exactCrossings (t : Tetragon) (y : Int) : List ℚ :=
  ((t.sides.filter (crosses y)).map (exactCrossing y)).mergeSort

/-- The even-odd rule: on one side of a point its row crosses an odd number of sides. -/
def Encloses (t : Tetragon) (p : Point) : Prop :=
  Odd (t.sides.countP fun side => crosses p.y side && decide (exactCrossing p.y side < p.x)) ∨
  Odd (t.sides.countP fun side => crosses p.y side && decide (p.x < exactCrossing p.y side))

/-- The sides from the second corner on. -/
def turn (t : Tetragon) : Tetragon := ⟨t.b, t.c, t.d, t.a⟩

/-- The sides the other way round. -/
def reverse (t : Tetragon) : Tetragon := ⟨t.d, t.c, t.b, t.a⟩

variable {t t' : Tetragon} {p : Point} {side : Point × Point} {y : Int}

section Crossings

theorem crossing_eq_halfUp (y : Int) (side : Point × Point) :
    crossing y side = halfUp (exactCrossing y side) := by
  rw [crossing_eq]
  split
  · exact Line.add_step_eq_of_ge (by omega)
  · exact Line.add_step_eq (by omega)

theorem exactCrossings_perm (t : Tetragon) (y : Int) :
    (t.exactCrossings y).Perm ((t.sides.filter (crosses y)).map (exactCrossing y)) :=
  List.mergeSort_perm _ _

theorem exactCrossings_sorted (t : Tetragon) (y : Int) :
    (t.exactCrossings y).Pairwise (· ≤ ·) :=
  List.sortedLE_mergeSort.pairwise

/-- Rounding keeps the order of the crossings. -/
theorem crossings_eq_map (t : Tetragon) (y : Int) :
    t.crossings y = (t.exactCrossings y).map halfUp := by
  apply List.Perm.eq_of_pairwise' (t.crossings_sorted y)
  · rw [List.pairwise_map]
    exact (t.exactCrossings_sorted y).imp fun h => halfUp_mono h
  · have hmap : (t.sides.filter (crosses y)).map (crossing y) =
        ((t.sides.filter (crosses y)).map (exactCrossing y)).map halfUp := by
      rw [List.map_map]
      exact List.map_congr_left fun side _ => crossing_eq_halfUp y side
    rw [crossings]
    refine (List.mergeSort_perm _ _).trans ?_
    rw [hmap]
    exact ((t.exactCrossings_perm y).map halfUp).symm

theorem crosses_eq (y : Int) (side : Point × Point) :
    crosses y side = (decide (side.1.y ≤ y) != decide (side.2.y ≤ y)) := by
  rw [Bool.eq_iff_iff, crosses_iff, bne_iff_ne, ne_eq, decide_eq_decide]
  omega

/-- Going round the corners, a row is left as often as it is entered. -/
theorem countP_crosses (t : Tetragon) (y : Int) : t.sides.countP (crosses y) = 0 ∨
    t.sides.countP (crosses y) = 2 ∨ t.sides.countP (crosses y) = 4 := by
  simp only [sides, List.countP_cons, List.countP_nil, crosses_eq]
  generalize decide (t.a.y ≤ y) = a
  generalize decide (t.b.y ≤ y) = b
  generalize decide (t.c.y ≤ y) = c
  generalize decide (t.d.y ≤ y) = d
  revert a b c d
  decide

theorem length_exactCrossings (t : Tetragon) (y : Int) :
    (t.exactCrossings y).length = t.sides.countP (crosses y) := by
  rw [(t.exactCrossings_perm y).length_eq, List.length_map, List.countP_eq_length_filter]

theorem even_length_exactCrossings (t : Tetragon) (y : Int) :
    Even (t.exactCrossings y).length := by
  rw [length_exactCrossings]
  rcases t.countP_crosses y with h | h | h
  all_goals
    rw [h]
    decide

theorem flatten_crossings (t : Tetragon) (y : Int) :
    (pairs (t.crossings y)).flatMap (fun q => [q.1, q.2]) = t.crossings y := by
  apply flatten_pairs
  rw [crossings_eq_map, List.length_map]
  exact t.even_length_exactCrossings y

theorem mem_inner_iff : p ∈ t.inner ↔ ∃ i left right,
    (t.exactCrossings p.y)[2 * i]? = some left ∧ (t.exactCrossings p.y)[2 * i + 1]? = some right ∧
      halfUp left ≤ p.x ∧ p.x ≤ halfUp right := by
  rw [mem_inner]
  simp only [mem_pairs_iff, crossings_eq_map, List.getElem?_map, Option.map_eq_some_iff]
  constructor
  · rintro ⟨⟨_, _⟩, ⟨i, ⟨left, hleft, rfl⟩, right, hright, rfl⟩, hle, hle'⟩
    exact ⟨i, left, right, hleft, hright, hle, hle'⟩
  · rintro ⟨i, left, right, hleft, hright, hle, hle'⟩
    exact ⟨(halfUp left, halfUp right), ⟨i, ⟨left, hleft, rfl⟩, right, hright, rfl⟩, hle, hle'⟩

theorem countP_exactCrossings (t : Tetragon) (y : Int) (test : ℚ → Bool) :
    (t.exactCrossings y).countP test =
      t.sides.countP fun side => crosses y side && test (exactCrossing y side) := by
  rw [(t.exactCrossings_perm y).countP_eq, List.countP_map, List.countP_filter]
  exact List.countP_congr fun side _ => by rw [Bool.and_comm]; rfl

theorem mem_inner_of_odd {test : ℚ → Bool} (hmono : ∀ a b, a ≤ b → test b = true → test a = true)
    (hodd : Odd ((t.exactCrossings p.y).countP test)) (hleft : ∀ a, test a = true → a ≤ p.x)
    (hright : ∀ b, test b = false → p.x ≤ b) : p ∈ t.inner := by
  have hsorted := (t.exactCrossings_sorted p.y).imp fun {a b} h => hmono a b h
  obtain ⟨i, left, right, hl, hr, htl, htr⟩ :=
    exists_pair_of_odd hsorted (t.even_length_exactCrossings p.y) hodd
  refine mem_inner_iff.mpr ⟨i, left, right, hl, hr, ?_, ?_⟩
  · rw [← halfUp_intCast p.x]
    exact halfUp_mono (hleft left htl)
  · rw [← halfUp_intCast p.x]
    exact halfUp_mono (hright right htr)

theorem mem_inner_of_encloses (h : t.Encloses p) : p ∈ t.inner := by
  rcases h with h | h
  · rw [← t.countP_exactCrossings p.y fun q => decide (q < p.x)] at h
    apply mem_inner_of_odd ?_ h
    · exact fun a ha => le_of_lt (of_decide_eq_true ha)
    · exact fun b hb => not_lt.mp (of_decide_eq_false hb)
    · exact fun a b hab hb => decide_eq_true (lt_of_le_of_lt hab (of_decide_eq_true hb))
  · rw [← t.countP_exactCrossings p.y fun q => decide (p.x < q)] at h
    -- The crossings are an even number, so those up to the point are an odd number as well.
    have hodd : Odd ((t.exactCrossings p.y).countP fun q => decide (q ≤ (p.x : ℚ))) := by
      have heven := t.even_length_exactCrossings p.y
      rw [List.length_eq_countP_add_countP fun q => decide ((p.x : ℚ) < q)] at heven
      simp only [decide_eq_true_eq, not_lt] at heven
      exact (Nat.even_add'.mp heven).mp h
    apply mem_inner_of_odd ?_ hodd
    · exact fun a ha => of_decide_eq_true ha
    · exact fun b hb => le_of_lt (not_le.mp (of_decide_eq_false hb))
    · exact fun a b hab hb => decide_eq_true (hab.trans (of_decide_eq_true hb))

end Crossings

section Orders

theorem crossings_congr {f : Point × Point → Point × Point} (hsides : t'.sides.Perm (t.sides.map f))
    (hcrosses : ∀ side, crosses y (f side) = crosses y side)
    (hcrossing : ∀ side, crosses y side = true → crossing y (f side) = crossing y side) :
    t'.crossings y = t.crossings y := by
  apply List.Perm.eq_of_pairwise' (t'.crossings_sorted y) (t.crossings_sorted y)
  have hmap : ((t.sides.map f).filter (crosses y)).map (crossing y) =
      (t.sides.filter (crosses y)).map (crossing y) := by
    rw [List.filter_map, List.map_map, show crosses y ∘ f = crosses y from funext hcrosses]
    exact List.map_congr_left fun side hside => hcrossing side (List.mem_filter.mp hside).2
  rw [crossings, crossings]
  refine (List.mergeSort_perm _ _).trans (.trans ?_ (List.mergeSort_perm _ _).symm)
  rw [← hmap]
  exact (hsides.filter _).map _

theorem outline_congr {f : Point × Point → Point × Point} (hsides : t'.sides.Perm (t.sides.map f))
    (hpixels : ∀ side : Point × Point,
      Line.pixels (f side).1 (f side).2 = Line.pixels side.1 side.2) :
    t'.outline = t.outline := by
  ext p
  rw [mem_outline, mem_outline]
  constructor
  · rintro ⟨_, hmem, hp⟩
    obtain ⟨side, hside, rfl⟩ := List.mem_map.mp (hsides.mem_iff.mp hmem)
    rw [hpixels] at hp
    exact ⟨side, hside, hp⟩
  · rintro ⟨side, hside, hp⟩
    rw [← hpixels] at hp
    exact ⟨f side, hsides.mem_iff.mpr (List.mem_map_of_mem hside), hp⟩

/-- What is filled depends on the sides alone, in whatever order and direction. -/
theorem solid_congr {f : Point × Point → Point × Point} (hsides : t'.sides.Perm (t.sides.map f))
    (hcrosses : ∀ y side, crosses y (f side) = crosses y side)
    (hcrossing : ∀ y side, crosses y side = true → crossing y (f side) = crossing y side)
    (hpixels : ∀ side : Point × Point,
      Line.pixels (f side).1 (f side).2 = Line.pixels side.1 side.2) :
    t'.solid = t.solid := by
  have hinner : t'.inner = t.inner := by
    ext p
    rw [mem_inner, mem_inner, crossings_congr hsides (hcrosses p.y) (hcrossing p.y)]
  rw [solid, solid, hinner, outline_congr hsides hpixels]

theorem sides_turn (t : Tetragon) : t.turn.sides.Perm (t.sides.map id) := by
  rw [List.map_id]
  exact List.perm_append_singleton (t.a, t.b) [(t.b, t.c), (t.c, t.d), (t.d, t.a)]

theorem sides_reverse (t : Tetragon) : t.reverse.sides.Perm (t.sides.map Prod.swap) :=
  (List.reverse_perm [(t.b, t.a), (t.c, t.b), (t.d, t.c)]).append_right [(t.a, t.d)]

theorem crosses_swap (y : Int) (side : Point × Point) : crosses y side.swap = crosses y side := by
  rw [crosses_eq, crosses_eq, bne_comm]
  rfl

theorem crossing_swap (h : crosses y side = true) : crossing y side.swap = crossing y side := by
  rw [crosses_iff] at h
  have hne : side.2.y ≠ side.1.y := by omega
  rw [crossing_eq_halfUp, crossing_eq_halfUp]
  exact congrArg halfUp (Line.valueAt_symm hne _ _ _)

theorem solid_turn (t : Tetragon) : t.turn.solid = t.solid :=
  solid_congr t.sides_turn (fun _ _ => rfl) (fun _ _ _ => rfl) fun _ => rfl

theorem solid_reverse (t : Tetragon) : t.reverse.solid = t.solid :=
  solid_congr t.sides_reverse crosses_swap (fun _ _ => crossing_swap) fun _ => Line.pixels_comm _ _

theorem box_turn (t : Tetragon) : t.turn.box = t.box := by
  simp only [box, turn, least, greatest]
  congr 1
  all_goals omega

theorem box_reverse (t : Tetragon) : t.reverse.box = t.box := by
  simp only [box, reverse, least, greatest]
  congr 1
  all_goals omega

end Orders

end Scanline.Tetragon

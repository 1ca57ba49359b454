import Mathlib.Data.Rat.Floor
import Mathlib.Tactic.FieldSimp
import Mathlib.Tactic.Linarith
import Scanline.Proofs.Shape.Line
/-! Lines and the exact slope between their ends. Along its longer axis a line has one pixel at each
step, where the exact line through both ends is rounded half up. Nothing in this depends on which
of the ends comes first. -/

namespace Scanline

/-- The nearest integer, a half rounded up. -/
def halfUp (q : ℚ) : Int := ⌊q + 1 / 2⌋

theorem le_halfUp_iff {k : Int} {q : ℚ} : k ≤ halfUp q ↔ (k : ℚ) ≤ q + 1 / 2 := Int.le_floor

theorem halfUp_mono {p q : ℚ} (h : p ≤ q) : halfUp p ≤ halfUp q := by
  apply Int.floor_le_floor
  linarith

@[simp] theorem halfUp_intCast (k : Int) : halfUp k = k := by
  rw [halfUp, Int.floor_intCast_add, add_eq_left, Int.floor_eq_zero_iff]
  norm_num

theorem halfUp_add_one (q : ℚ) : halfUp (q + 1) = halfUp q + 1 := by
  rw [halfUp, halfUp, add_right_comm, Int.floor_add_one]

theorem halfUp_joined {p q : ℚ} (h : |q - p| ≤ 1) : (halfUp q - halfUp p).natAbs ≤ 1 := by
  obtain ⟨hlow, hhigh⟩ := abs_le.mp h
  have hup := halfUp_mono (show q ≤ p + 1 by linarith)
  have hdown := halfUp_mono (show p ≤ q + 1 by linarith)
  rw [halfUp_add_one] at hup hdown
  omega

namespace Line

/-- The value at `t` of the straight line that is `v` at `u` and `v'` at `u'`. -/
def valueAt (u v u' v' t : Int) : ℚ := v + (t - u) * (v' - v) / (u' - u)

variable {a b p : Point} {u v u' v' t : Int}

@[simp] theorem valueAt_self (u v u' v' : Int) : valueAt u v u' v' u = v := by
  rw [valueAt, sub_self, zero_mul, zero_div, add_zero]

theorem valueAt_symm (h : u ≠ u') (v v' t : Int) : valueAt u v u' v' t = valueAt u' v' u v t := by
  have hne : (u' : ℚ) - u ≠ 0 := sub_ne_zero.mpr (Int.cast_injective.ne h.symm)
  have hne' : (u : ℚ) - u' ≠ 0 := sub_ne_zero.mpr (Int.cast_injective.ne h)
  rw [valueAt, valueAt]
  field_simp
  ring

theorem le_halfUp_valueAt_iff (h : u < u') {k : Int} : k ≤ halfUp (valueAt u v u' v' t) ↔
    2 * ((k - v) * (u' - u)) ≤ 2 * ((t - u) * (v' - v)) + (u' - u) := by
  have hpos : (0 : ℚ) < u' - u := sub_pos.mpr (Int.cast_lt.mpr h)
  have hround : (k : ℚ) ≤ valueAt u v u' v' t + 1 / 2 ↔
      (k - v - 1 / 2 : ℚ) * (u' - u) ≤ (t - u) * (v' - v) := by
    rw [← le_div_iff₀ hpos, valueAt]
    constructor
    · intro hk
      linarith
    · intro hk
      linarith
  rw [le_halfUp_iff, hround, ← Int.cast_le (R := ℚ)]
  push_cast
  constructor
  · intro hk
    linarith
  · intro hk
    linarith

/-- Steps round the exact line. -/
theorem add_step_eq (h : u ≤ u') :
    v + step (t - u) (v' - v) (u' - u) = halfUp (valueAt u v u' v' t) := by
  rcases Int.lt_or_eq_of_le h with hlt | rfl
  · apply eq_of_forall_le_iff
    intro k
    rw [← sub_le_iff_le_add', le_step_iff (Int.sub_pos.mpr hlt), le_halfUp_valueAt_iff hlt]
  · rw [Int.sub_self, step, Int.mul_zero, Int.ediv_zero, valueAt, sub_self, div_zero, add_zero,
      add_zero, halfUp_intCast]

theorem valueAt_neg (u v u' v' t : Int) : valueAt (-u) v (-u') v' (-t) = valueAt u v u' v' t := by
  rw [valueAt, valueAt]
  push_cast
  rw [neg_sub_neg, neg_sub_neg, ← neg_sub (t : ℚ), ← neg_sub (u' : ℚ), neg_mul, neg_div_neg_eq]

/-- Steps against the direction of the axis are those of the mirrored line. -/
theorem add_step_eq_of_ge (h : u' ≤ u) :
    v + step (u - t) (v' - v) (u - u') = halfUp (valueAt u v u' v' t) := by
  have hmirror : v + step (-t - -u) (v' - v) (-u' - -u) =
      halfUp (valueAt (-u) v (-u') v' (-t)) := add_step_eq (neg_le_neg h)
  rwa [valueAt_neg, neg_sub_neg, neg_sub_neg] at hmirror

theorem mem_pixels_flat (h : (b.y - a.y).natAbs ≤ (b.x - a.x).natAbs) : p ∈ pixels a b ↔
    (min a.x b.x ≤ p.x ∧ p.x ≤ max a.x b.x) ∧ p.y = halfUp (valueAt a.x a.y b.x b.y p.x) := by
  rw [pixels, if_pos (isFlat_iff.mpr h)]
  split
  · rw [mem_flat, add_step_eq (by omega), valueAt_symm (by omega)]
    omega
  · rw [mem_flat, add_step_eq (by omega)]
    omega

theorem mem_pixels_steep (h : (b.x - a.x).natAbs < (b.y - a.y).natAbs) : p ∈ pixels a b ↔
    (min a.y b.y ≤ p.y ∧ p.y ≤ max a.y b.y) ∧ p.x = halfUp (valueAt a.y a.x b.y b.x p.y) := by
  rw [pixels, if_neg (fun hf => by rw [isFlat_iff] at hf; omega)]
  split
  · rw [mem_steep, add_step_eq (by omega), valueAt_symm (by omega)]
    omega
  · rw [mem_steep, add_step_eq (by omega)]
    omega

theorem valueAt_comm (h : (v' - v).natAbs ≤ (u' - u).natAbs) (t : Int) :
    valueAt u v u' v' t = valueAt u' v' u v t := by
  by_cases hu : u = u'
  · obtain rfl : v = v' := by omega
    rw [hu]
  · exact valueAt_symm hu v v' t

theorem pixels_comm (a b : Point) : pixels a b = pixels b a := by
  ext p
  by_cases h : (b.y - a.y).natAbs ≤ (b.x - a.x).natAbs
  · rw [mem_pixels_flat h, mem_pixels_flat (by omega), valueAt_comm h]
    omega
  · rw [mem_pixels_steep (by omega), mem_pixels_steep (by omega), valueAt_comm (by omega)]
    omega

theorem left_mem_pixels (a b : Point) : a ∈ pixels a b := by
  by_cases h : (b.y - a.y).natAbs ≤ (b.x - a.x).natAbs
  · rw [mem_pixels_flat h, valueAt_self, halfUp_intCast]
    omega
  · rw [mem_pixels_steep (by omega), valueAt_self, halfUp_intCast]
    omega

theorem right_mem_pixels (a b : Point) : b ∈ pixels a b := by
  rw [pixels_comm]
  exact left_mem_pixels b a

theorem abs_valueAt_sub_le (h : (v' - v).natAbs ≤ (u' - u).natAbs) (t : Int) :
    |valueAt u v u' v' (t + 1) - valueAt u v u' v' t| ≤ 1 := by
  have hdiff : valueAt u v u' v' (t + 1) - valueAt u v u' v' t = (v' - v) / (u' - u) := by
    rw [valueAt, valueAt]
    push_cast
    ring
  have hcast : |(v' - v : ℚ)| ≤ |(u' - u : ℚ)| := by
    rw [← Int.cast_sub, ← Int.cast_sub, ← Int.cast_abs, ← Int.cast_abs, Int.cast_le,
      Int.abs_eq_natAbs, Int.abs_eq_natAbs]
    omega
  rw [hdiff, abs_div]
  exact div_le_one_of_le₀ hcast (abs_nonneg _)

/-- The points `place t w` of a set follow the line from `v` at `u` to `v'` at `u'`. -/
structure Traces (S : Set Point) (place : Int → Int → Point) (u v u' v' : Int) : Prop where
  single : ∀ t, min u u' ≤ t → t ≤ max u u' → ∃! w, place t w ∈ S
  rounded : ∀ t w, place t w ∈ S → w = halfUp (valueAt u v u' v' t)
  joined : ∀ t w w', place t w ∈ S → place (t + 1) w' ∈ S → (w' - w).natAbs ≤ 1

theorem Traces.of_forall_iff {S : Set Point} {place : Int → Int → Point}
    (h : (v' - v).natAbs ≤ (u' - u).natAbs) (hS : ∀ t w, place t w ∈ S ↔
      (min u u' ≤ t ∧ t ≤ max u u') ∧ w = halfUp (valueAt u v u' v' t)) :
    Traces S place u v u' v' := by
  have hrounded : ∀ t w, place t w ∈ S → w = halfUp (valueAt u v u' v' t) :=
    fun t w hw => ((hS t w).mp hw).2
  refine ⟨?_, hrounded, ?_⟩
  · intro t ht ht'
    exact ⟨_, (hS t _).mpr ⟨⟨ht, ht'⟩, rfl⟩, hrounded t⟩
  · intro t w w' hw hw'
    rw [hrounded t w hw, hrounded (t + 1) w' hw']
    exact halfUp_joined (abs_valueAt_sub_le h t)

theorem traces_flat (h : (b.y - a.y).natAbs ≤ (b.x - a.x).natAbs) :
    Traces (pixels a b) (fun x y => ⟨x, y⟩) a.x a.y b.x b.y :=
  .of_forall_iff h fun _ _ => mem_pixels_flat h

theorem traces_steep (h : (b.x - a.x).natAbs < (b.y - a.y).natAbs) :
    Traces (pixels a b) (fun y x => ⟨x, y⟩) a.y a.x b.y b.x :=
  .of_forall_iff (Nat.le_of_lt h) fun _ _ => mem_pixels_steep h

end Line

end Scanline

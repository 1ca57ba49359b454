import Mathlib.Tactic.Linarith
import Mathlib.Tactic.Ring
import Scanline.Proofs.Shape.Circle
/-! The midpoint rule as an inequality. Heights and widths that are searched for by bisection are
the greatest with a midpoint inside the circle, since whatever is below or left of such a point has
its midpoint inside as well. -/

namespace Scanline.Circle

/-- Bisection finds the end of a test that holds on a first part of a range. -/
theorem le_lastWhere_iff {test : Int → Bool} {lo hi v : Int}
    (hmono : ∀ u v, lo < u → u ≤ v → test v = true → test u = true) (hv : lo < v) (hv' : v ≤ hi) :
    v ≤ lastWhere test lo hi ↔ test v = true := by
  fun_induction lastWhere test lo hi with
  | case1 lo hi hlt mid ht ih =>
    by_cases hmid : v ≤ mid
    · have hge := (lastWhere_bounds test (show mid ≤ hi by omega)).1
      exact iff_of_true (by omega) (hmono v mid hv hmid ht)
    · exact ih (fun u v hu => hmono u v (by omega)) (by omega) hv'
  | case2 lo hi hlt mid ht ih =>
    by_cases hmid : mid ≤ v
    · have hle := (lastWhere_bounds test (show lo ≤ mid - 1 by omega)).2
      exact iff_of_false (by omega) fun htv => ht (hmono mid v (by omega) hmid htv)
    · exact ih hmono hv (by omega)
  | case3 lo hi hlt => omega

variable {r a a' b b' : Int}

theorem inside_iff :
    inside r a b = true ↔ 4 * (a * a) + (2 * b - 1) * (2 * b - 1) < 4 * (r * r) := by
  rw [inside, decide_eq_true_iff, Int.mul_assoc, Int.mul_assoc]

theorem inside_mono (ha : 0 ≤ a) (haa : a ≤ a') (hb : 0 < b) (hbb : b ≤ b')
    (h : inside r a' b' = true) : inside r a b = true := by
  rw [inside_iff] at h ⊢
  have hx : a * a ≤ a' * a' := mul_self_le_mul_self ha haa
  have hy : (2 * b - 1) * (2 * b - 1) ≤ (2 * b' - 1) * (2 * b' - 1) :=
    mul_self_le_mul_self (by omega) (by omega)
  omega

theorem le_of_inside (hr : 0 < r) (h : inside r a b = true) : a ≤ r ∧ b ≤ r := by
  rw [inside_iff] at h
  constructor
  · by_contra hlt
    have hx : r * r ≤ a * a := mul_self_le_mul_self (by omega) (by omega)
    have hy := mul_self_nonneg (2 * b - 1)
    omega
  · by_contra hlt
    have hx := mul_self_nonneg a
    have hy : (2 * r + 1) * (2 * r + 1) ≤ (2 * b - 1) * (2 * b - 1) :=
      mul_self_le_mul_self (by omega) (by omega)
    linarith

/-- A midpoint never lies on the circle: the squares of odd numbers are odd. -/
theorem inside_of_le (h : 4 * (a * a) + (2 * b - 1) * (2 * b - 1) ≤ 4 * (r * r)) :
    inside r a b = true := by
  have hodd : (2 * b - 1) * (2 * b - 1) = 4 * (b * b - b) + 1 := by ring
  rw [inside_iff]
  omega

section Searches
variable (hr : 0 < r)
include hr

theorem le_octantHeight_iff (ha : 0 ≤ a) (hb : 0 < b) :
    b ≤ octantHeight r a ↔ inside r a b = true := by
  rw [octantHeight, if_neg (by omega)]
  by_cases hbr : b ≤ r
  · exact le_lastWhere_iff (fun u v hu huv => inside_mono ha (Int.le_refl a) hu huv) hb hbr
  · have hle := (lastWhere_bounds (fun y => inside r a y) (Int.le_of_lt hr)).2
    exact iff_of_false (by omega) fun h => hbr (le_of_inside hr h).2

theorem le_octantEnd_iff (ha : 0 < a) : a ≤ octantEnd r ↔ inside r a a = true := by
  rw [octantEnd, if_neg (by omega)]
  by_cases har : a ≤ r
  · exact le_lastWhere_iff
      (fun u v hu huv => inside_mono (Int.le_of_lt hu) huv hu huv) ha har
  · have hle := (lastWhere_bounds (fun x => inside r x x) (Int.le_of_lt hr)).2
    exact iff_of_false (by omega) fun h => har (le_of_inside hr h).1

/-- Rows past the octant are as wide as their midpoints allow. -/
theorem le_halfWidth_iff {last : Int} (hlast : 0 ≤ last) (hb : last < b) (ha : 0 < a) :
    a ≤ halfWidth r last b ↔ inside r a b = true := by
  rw [halfWidth, if_neg (by omega), if_neg (by omega)]
  by_cases har : a ≤ r
  · exact le_lastWhere_iff (fun u v hu huv =>
      inside_mono (Int.le_of_lt hu) huv (by omega) (Int.le_refl b)) ha har
  · have hle := (lastWhere_bounds (fun w => inside r w b) (Int.le_of_lt hr)).2
    exact iff_of_false (by omega) fun h => har (le_of_inside hr h).1

theorem octantHeight_eq (ha : 0 ≤ a) (hb : 0 < b) (hin : inside r a b = true)
    (hout : ¬inside r a (b + 1) = true) : octantHeight r a = b := by
  have hge := (le_octantHeight_iff hr ha hb).mpr hin
  have hlt := mt (le_octantHeight_iff hr ha (b := b + 1) (by omega)).mp hout
  omega

end Searches

end Scanline.Circle

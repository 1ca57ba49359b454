import Scanline.Box
/-! Horizontal runs of pixels. A shape is drawn as the runs that it has inside a clip box. -/

namespace Scanline

/-- The pixels of row `y` from column `first` to column `last`, both included. -/
structure Run where
  y : Int
  first : Int
  last : Int
deriving DecidableEq

/-- The integers from `lo` to `hi`, both included. -/
def intRange (lo hi : Int) : List Int :=
  (List.range (hi + 1 - lo).toNat).map fun (i : Nat) => lo + i

theorem mem_intRange {v lo hi : Int} : v ∈ intRange lo hi ↔ lo ≤ v ∧ v ≤ hi := by
  simp only [intRange, List.mem_map, List.mem_range]
  constructor
  · rintro ⟨i, hi, rfl⟩
    omega
  · intro h
    exact ⟨(v - lo).toNat, by omega, by omega⟩

theorem intRange_eq_nil {lo hi : Int} (h : hi < lo) : intRange lo hi = [] := by
  rw [intRange, show (hi + 1 - lo).toNat = 0 by omega]
  rfl

theorem intRange_self (v : Int) : intRange v v = [v] := by
  rw [intRange, show (v + 1 - v).toNat = 1 by omega]
  exact congrArg (fun u => [u]) (Int.add_zero v)

theorem intRange_append {lo mid hi : Int} (h : lo ≤ mid + 1) (h' : mid ≤ hi) :
    intRange lo mid ++ intRange (mid + 1) hi = intRange lo hi := by
  rw [intRange, intRange, intRange, show (hi + 1 - lo).toNat =
    (mid + 1 - lo).toNat + (hi + 1 - (mid + 1)).toNat by omega, List.range_add, List.map_append,
    List.map_map]
  refine congrArg _ (List.map_congr_left fun i _ => ?_)
  simp only [Function.comp_apply]
  omega

theorem intRange_eq_cons {lo hi : Int} (h : lo ≤ hi) :
    intRange lo hi = lo :: intRange (lo + 1) hi := by
  rw [← intRange_append (show lo ≤ lo + 1 by omega) h, intRange_self, List.singleton_append]

theorem intRange_eq_concat {lo hi : Int} (h : lo ≤ hi) :
    intRange lo hi = intRange lo (hi - 1) ++ [hi] := by
  rw [← intRange_append (show lo ≤ hi - 1 + 1 by omega) (show hi - 1 ≤ hi by omega),
    Int.sub_add_cancel, intRange_self]

namespace Run

instance : Membership Point Run where
  mem r p := p.y = r.y ∧ r.first ≤ p.x ∧ p.x ≤ r.last

theorem mem_iff {p : Point} {r : Run} : p ∈ r ↔ p.y = r.y ∧ r.first ≤ p.x ∧ p.x ≤ r.last := Iff.rfl

/-- The part of row `y` between two columns that lies inside the clip. -/
def span (clip : Box) (x0 x1 y : Int) : List Run :=
  if y < clip.y ∨ y > clip.lastY then []
  else
    let first := max (min x0 x1) clip.x
    let last := min (max x0 x1) clip.lastX
    if first ≤ last then [⟨y, first, last⟩] else []

/-- The pixel at `(x, y)`, if it lies inside the clip. -/
def dot (clip : Box) (x y : Int) : List Run :=
  if (⟨x, y⟩ : Point) ∈ clip then [⟨y, x, x⟩] else []

/-- The part of column `x` between two rows that lies inside the clip. -/
def column (clip : Box) (x y0 y1 : Int) : List Run :=
  if x < clip.x ∨ x > clip.lastX then []
  else
    (intRange (max (min y0 y1) clip.y) (min (max y0 y1) clip.lastY)).map fun y => ⟨y, x, x⟩

end Run

end Scanline

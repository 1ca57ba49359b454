import Scanline.Proofs.Box.Membership
/-! The exact rectangle around boxes. A union is cut off where an extent would be too long. Cutting
off once at the end makes no difference to cutting off each union on the way, and no screen is
large enough to see it. -/

namespace Scanline

structure Point.InRange (p : Point) : Prop where
  x_ge : coordMin ≤ p.x
  x_le : p.x ≤ coordMax
  y_ge : coordMin ≤ p.y
  y_le : p.y ≤ coordMax

instance (p : Point) : Decidable p.InRange :=
  decidable_of_iff (coordMin ≤ p.x ∧ p.x ≤ coordMax ∧ coordMin ≤ p.y ∧ p.y ≤ coordMax)
    ⟨fun ⟨h₁, h₂, h₃, h₄⟩ => ⟨h₁, h₂, h₃, h₄⟩, fun ⟨h₁, h₂, h₃, h₄⟩ => ⟨h₁, h₂, h₃, h₄⟩⟩

/-- The origin is a pair of coordinates, and the size a pair of extents. -/
structure Box.InRange (b : Box) : Prop where
  x_ge : coordMin ≤ b.x
  x_le : b.x ≤ coordMax
  y_ge : coordMin ≤ b.y
  y_le : b.y ≤ coordMax
  w_le : b.w ≤ sizeMax
  h_le : b.h ≤ sizeMax

instance (b : Box) : Decidable b.InRange :=
  decidable_of_iff (coordMin ≤ b.x ∧ b.x ≤ coordMax ∧ coordMin ≤ b.y ∧ b.y ≤ coordMax ∧
      b.w ≤ sizeMax ∧ b.h ≤ sizeMax)
    ⟨fun ⟨h₁, h₂, h₃, h₄, h₅, h₆⟩ => ⟨h₁, h₂, h₃, h₄, h₅, h₆⟩,
      fun ⟨h₁, h₂, h₃, h₄, h₅, h₆⟩ => ⟨h₁, h₂, h₃, h₄, h₅, h₆⟩⟩

namespace Box

theorem inRange_empty : empty.InRange := by decide

theorem inRange_ofSize {x y : Int} {w h : Nat} (hr : (⟨x, y, w, h⟩ : Box).InRange) :
    (ofSize x y w h).InRange := by
  unfold ofSize
  split
  · exact inRange_empty
  · exact hr

theorem inRange_ofEdges (l t r b : Int) : (ofEdges l t r b).InRange := by
  unfold ofEdges
  dsimp only
  split
  · exact inRange_empty
  · apply inRange_ofSize
    constructor
    all_goals
      simp only [clampCoord, coordMin, coordMax, sizeMax]
      omega

end Box

/-- A rectangle in exact integers with exclusive right and bottom edges. -/
structure Edges where
  left : Int
  top : Int
  right : Int
  bottom : Int
deriving DecidableEq

namespace Edges

def ofBox (b : Box) : Edges := ⟨b.x, b.y, b.right, b.bottom⟩

def join (e f : Edges) : Edges :=
  ⟨min e.left f.left, min e.top f.top, max e.right f.right, max e.bottom f.bottom⟩

/-- The smallest rectangle around some boxes. -/
def around : List Box → Option Edges
  | [] => none
  | b :: bs =>
    match around bs with
    | none => some (ofBox b)
    | some e => some (e.join (ofBox b))

/-- The part of a rectangle on a screen. -/
def onScreen (e : Edges) (width height : Nat) : Edges :=
  ⟨max e.left 0, max e.top 0, min e.right width, min e.bottom height⟩

def IsEmpty (e : Edges) : Prop := e.right ≤ e.left ∨ e.bottom ≤ e.top

instance (e : Edges) : Decidable e.IsEmpty := inferInstanceAs (Decidable (_ ∨ _))

def area (e : Edges) : Nat := (e.right - e.left).toNat * (e.bottom - e.top).toNat

/-- The rectangle as a box, for sides that are extents. -/
def box (e : Edges) : Box := ⟨e.left, e.top, (e.right - e.left).toNat, (e.bottom - e.top).toNat⟩

/-- The rectangle as a box, cut off where a side is too long. -/
def cut (e : Edges) : Box := Box.ofEdges e.left e.top e.right e.bottom

/-- The rectangle around some boxes can be. -/
structure Proper (e : Edges) : Prop where
  left_ge : coordMin ≤ e.left
  left_le : e.left ≤ coordMax
  left_lt : e.left < e.right
  top_ge : coordMin ≤ e.top
  top_le : e.top ≤ coordMax
  top_lt : e.top < e.bottom

variable {e f : Edges} {b : Box} {bs bs' : List Box}

theorem proper_ofBox (hr : b.InRange) (hb : b.isEmpty = false) : (ofBox b).Proper := by
  obtain ⟨hx, hx', hy, hy', -, -⟩ := hr
  obtain ⟨hw, hh⟩ := Box.isEmpty_eq_false_iff.mp hb
  refine ⟨hx, hx', ?_, hy, hy', ?_⟩
  · simp only [ofBox, Box.right]
    omega
  · simp only [ofBox, Box.bottom]
    omega

theorem Proper.join (he : e.Proper) (hf : f.Proper) : (e.join f).Proper := by
  obtain ⟨h₁, h₂, h₃, h₄, h₅, h₆⟩ := he
  obtain ⟨g₁, g₂, g₃, g₄, g₅, g₆⟩ := hf
  constructor
  all_goals
    simp only [Edges.join]
    omega

theorem Proper.cut_eq (he : e.Proper) : e.cut = ⟨e.left, e.top,
    min (e.right - e.left).toNat sizeMax, min (e.bottom - e.top).toNat sizeMax⟩ := by
  obtain ⟨h₁, h₂, h₃, h₄, h₅, h₆⟩ := he
  have hl : clampCoord e.left = e.left := by rw [clampCoord]; omega
  have ht : clampCoord e.top = e.top := by rw [clampCoord]; omega
  rw [cut, Box.ofEdges, hl, ht, if_neg (by omega), Box.ofSize, if_neg (by rw [sizeMax]; omega),
    Box.mk.injEq]
  omega

theorem Proper.isEmpty_cut (he : e.Proper) : e.cut.isEmpty = false := by
  have hw := he.left_lt
  have hh := he.top_lt
  rw [he.cut_eq, Box.isEmpty_eq_false_iff, sizeMax]
  dsimp only
  omega

theorem cut_ofBox (hr : b.InRange) (hb : b.isEmpty = false) : (ofBox b).cut = b := by
  rw [(proper_ofBox hr hb).cut_eq]
  obtain ⟨-, -, -, -, hw, hh⟩ := hr
  rcases b with ⟨x, y, w, h⟩
  simp only [ofBox, Box.right, Box.bottom, Box.mk.injEq, true_and] at hw hh ⊢
  omega

theorem union_eq_cut {a b : Box} (ha : a.isEmpty = false) (hb : b.isEmpty = false) :
    a.union b = ((ofBox a).join (ofBox b)).cut := by
  rw [Box.union, ha, hb, if_neg Bool.false_ne_true, if_neg Bool.false_ne_true]
  rfl

/-- Cutting off before a union changes nothing. -/
theorem Proper.union_cut (he : e.Proper) (hr : b.InRange) (hb : b.isEmpty = false) :
    e.cut.union b = (e.join (ofBox b)).cut := by
  have hbox := proper_ofBox hr hb
  obtain ⟨h₁, h₂, h₃, h₄, h₅, h₆⟩ := he.join hbox
  have hcut : (ofBox e.cut).Proper := by
    rw [he.cut_eq]
    refine proper_ofBox ⟨he.left_ge, he.left_le, he.top_ge, he.top_le, ?_, ?_⟩ ?_
    · exact Nat.min_le_right _ _
    · exact Nat.min_le_right _ _
    · rw [← he.cut_eq]
      exact he.isEmpty_cut
  have hedge := he.left_lt
  have hedge' := he.top_lt
  rw [union_eq_cut he.isEmpty_cut hb, (hcut.join hbox).cut_eq, (he.join hbox).cut_eq, he.cut_eq]
  simp only [Edges.join, ofBox, Box.right, Box.bottom, sizeMax, Box.mk.injEq, true_and]
  constructor
  · omega
  · omega

section Screen
variable {width height : Nat} (hw : (width : Int) ≤ coordMax) (hh : (height : Int) ≤ coordMax)
include hw hh

/-- No screen is large enough to see where a rectangle is cut off. -/
theorem Proper.min_cut (he : e.Proper) :
    min e.cut.right width = min e.right width ∧ min e.cut.bottom height = min e.bottom height := by
  rw [he.cut_eq]
  obtain ⟨h₁, h₂, h₃, h₄, h₅, h₆⟩ := he
  simp only [Box.right, Box.bottom, coordMin, coordMax, sizeMax] at *
  constructor
  · omega
  · omega

theorem cut_onScreen : (e.onScreen width height).cut =
    if (e.onScreen width height).IsEmpty then Box.empty else (e.onScreen width height).box := by
  by_cases hempty : (e.onScreen width height).IsEmpty
  · rw [if_pos hempty, cut, Box.ofEdges, if_pos]
    simp only [IsEmpty, onScreen, clampCoord, coordMin, coordMax] at *
    omega
  · rw [if_neg hempty]
    simp only [IsEmpty, onScreen, cut, box] at hempty ⊢
    exact Box.ofEdges_of_bounds (by omega) (by omega) (by omega) (by omega) (by omega) (by omega)

theorem Proper.intersect_cut (he : e.Proper) :
    e.cut.intersect (Box.ofSize 0 0 width height) =
      if (e.onScreen width height).IsEmpty then Box.empty else (e.onScreen width height).box := by
  rw [← cut_onScreen hw hh, Box.ofSize]
  split
  · rename_i hnone
    rw [cut_onScreen hw hh, if_pos (by simp only [IsEmpty, onScreen]; omega), Box.intersect,
      if_pos (by rw [Box.isEmpty_empty, Bool.or_true])]
  · have hbounds : (⟨0, 0, width, height⟩ : Box).isEmpty = false :=
      Box.isEmpty_eq_false_iff.mpr (by dsimp only; omega)
    have hcut : e.cut.x = e.left ∧ e.cut.y = e.top := by rw [he.cut_eq]; exact ⟨rfl, rfl⟩
    obtain ⟨hright, hbottom⟩ := he.min_cut hw hh
    rw [Box.intersect, he.isEmpty_cut, hbounds, Bool.or_self, if_neg Bool.false_ne_true, hcut.1,
      hcut.2, show (⟨0, 0, width, height⟩ : Box).right = width from Int.zero_add _,
      show (⟨0, 0, width, height⟩ : Box).bottom = height from Int.zero_add _, hright, hbottom]
    rfl

end Screen

/-- The rectangle around some boxes as a box, cut off where a side is too long. -/
def cutAround (bs : List Box) : Box :=
  match around bs with
  | none => Box.empty
  | some e => e.cut

theorem proper_of_around (h : ∀ b ∈ bs, b.InRange ∧ b.isEmpty = false) (he : around bs = some e) :
    e.Proper := by
  induction bs generalizing e with
  | nil => exact absurd he nofun
  | cons b bs ih =>
    obtain ⟨hr, hb⟩ := h b List.mem_cons_self
    rw [around] at he
    split at he
    · rw [← Option.some.inj he]
      exact proper_ofBox hr hb
    · rename_i f hf
      rw [← Option.some.inj he]
      exact (ih (fun b' hb' => h b' (List.mem_cons_of_mem _ hb')) hf).join (proper_ofBox hr hb)

/-- However many boxes are united, the union is their rectangle, cut off once. -/
theorem union_cutAround (h : ∀ b' ∈ bs, b'.InRange ∧ b'.isEmpty = false) (hr : b.InRange)
    (hb : b.isEmpty = false) : (cutAround bs).union b = cutAround (b :: bs) := by
  simp only [cutAround, around]
  cases hf : around bs with
  | none =>
    rw [Box.union, if_pos Box.isEmpty_empty]
    exact (cut_ofBox hr hb).symm
  | some f => exact (proper_of_around h hf).union_cut hr hb

theorem join_comm (e f g : Edges) : (e.join f).join g = (e.join g).join f := by
  simp only [join, mk.injEq]
  omega

theorem around_perm (h : bs.Perm bs') : around bs = around bs' := by
  induction h with
  | nil => rfl
  | cons b _ ih => rw [around, around, ih]
  | swap b b' bs =>
    simp only [around]
    cases around bs with
    | none => simp only [join, Option.some.injEq, mk.injEq]; omega
    | some e => exact congrArg some (join_comm e (ofBox b) (ofBox b'))
  | trans _ _ ih ih' => exact ih.trans ih'

theorem le_around (hb : b ∈ bs) : ∃ e, around bs = some e ∧ e.left ≤ b.x ∧ e.top ≤ b.y ∧
    b.right ≤ e.right ∧ b.bottom ≤ e.bottom := by
  induction bs with
  | nil => exact absurd hb List.not_mem_nil
  | cons b' bs ih =>
    rw [around]
    rcases List.mem_cons.mp hb with rfl | hmem
    · split
      · exact ⟨_, rfl, by simp only [ofBox]; omega⟩
      · exact ⟨_, rfl, by simp only [join, ofBox]; omega⟩
    · obtain ⟨e, he, hle⟩ := ih hmem
      rw [he]
      exact ⟨_, rfl, by simp only [join, ofBox]; omega⟩

end Edges

end Scanline

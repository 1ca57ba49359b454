import Mathlib.Data.List.Induction
import Mathlib.Order.Bounds.Basic
import Scanline.Proofs.Box.Laws
/-! Unions of many boxes. Each union on the way is cut off where an extent would be too long, but
what comes out is the exact rectangle around the boxes, cut off once. It depends only on which
boxes with points there are, so they may come in any order and any number of times. -/

namespace Scanline

/-- The edges of the smallest rectangle around some boxes. -/
structure Edges.Around (e : Edges) (S : Set Box) : Prop where
  left : IsLeast (Box.x '' S) e.left
  top : IsLeast (Box.y '' S) e.top
  right : IsGreatest (Box.right '' S) e.right
  bottom : IsGreatest (Box.bottom '' S) e.bottom

namespace Edges
variable {e f : Edges} {S : Set Box}

theorem around_singleton (b : Box) : (ofBox b).Around {b} := by
  constructor
  · rw [Set.image_singleton]
    exact isLeast_singleton
  · rw [Set.image_singleton]
    exact isLeast_singleton
  · rw [Set.image_singleton]
    exact isGreatest_singleton
  · rw [Set.image_singleton]
    exact isGreatest_singleton

namespace Around

theorem insert (h : e.Around S) (b : Box) : (e.join (ofBox b)).Around (insert b S) := by
  constructor
  · rw [Set.image_insert_eq, join, min_comm]
    exact h.left.insert b.x
  · rw [Set.image_insert_eq, join, min_comm e.top]
    exact h.top.insert b.y
  · rw [Set.image_insert_eq, join, max_comm]
    exact h.right.insert b.right
  · rw [Set.image_insert_eq, join, max_comm e.bottom]
    exact h.bottom.insert b.bottom

theorem unique (h : e.Around S) (h' : f.Around S) : e = f := by
  rcases e with ⟨l, t, r, b⟩
  obtain rfl := h.left.unique h'.left
  obtain rfl := h.top.unique h'.top
  obtain rfl := h.right.unique h'.right
  obtain rfl := h.bottom.unique h'.bottom
  rfl

theorem nonempty (h : e.Around S) : S.Nonempty := Set.image_nonempty.mp h.left.nonempty

variable (h : e.Around S)
include h

theorem edges_le {b : Box} (hb : b ∈ S) :
    e.left ≤ b.x ∧ e.top ≤ b.y ∧ b.right ≤ e.right ∧ b.bottom ≤ e.bottom :=
  ⟨h.left.2 ⟨b, hb, rfl⟩, h.top.2 ⟨b, hb, rfl⟩, h.right.2 ⟨b, hb, rfl⟩, h.bottom.2 ⟨b, hb, rfl⟩⟩

theorem proper (hS : ∀ b ∈ S, b.InRange ∧ b.isEmpty = false) : e.Proper := by
  obtain ⟨a, ha, hleft⟩ := h.left.1
  obtain ⟨b, hb, htop⟩ := h.top.1
  have hx := proper_ofBox (hS a ha).1 (hS a ha).2
  have hy := proper_ofBox (hS b hb).1 (hS b hb).2
  have hright := (h.edges_le ha).2.2.1
  have hbottom := (h.edges_le hb).2.2.2
  constructor
  · exact hleft ▸ hx.left_ge
  · exact hleft ▸ hx.left_le
  · exact hleft ▸ Int.lt_of_lt_of_le hx.left_lt hright
  · exact htop ▸ hy.top_ge
  · exact htop ▸ hy.top_le
  · exact htop ▸ Int.lt_of_lt_of_le hy.top_lt hbottom

/-- A rectangle that is not cut off covers all that it is around. -/
theorem covers_cut (hS : ∀ b ∈ S, b.InRange ∧ b.isEmpty = false)
    (hw : e.right - e.left ≤ sizeMax) (hh : e.bottom - e.top ≤ sizeMax) {b : Box} (hb : b ∈ S) :
    e.cut.covers b = true := by
  have hcut := (h.proper hS).cut_eq
  obtain ⟨hx, hy, hr, hbot⟩ := h.edges_le hb
  apply Box.covers_iff.mpr
  intro p hp
  rw [Box.mem_iff] at hp
  rw [hcut, Box.mem_iff]
  simp only [Box.right, Box.bottom] at *
  omega

/-- No box that covers them all is smaller, whether the rectangle is cut off or not. -/
theorem covers_of_forall (hS : ∀ b ∈ S, b.InRange ∧ b.isEmpty = false) {c : Box}
    (hc : ∀ b ∈ S, c.covers b = true) : c.covers e.cut = true := by
  have hcut := (h.proper hS).cut_eq
  obtain ⟨a₁, h₁, hleft⟩ := h.left.1
  obtain ⟨a₂, h₂, htop⟩ := h.top.1
  obtain ⟨a₃, h₃, hright⟩ := h.right.1
  obtain ⟨a₄, h₄, hbottom⟩ := h.bottom.1
  have hx := (Box.edges_of_covers (hc a₁ h₁) (hS a₁ h₁).2).1
  have hy := (Box.edges_of_covers (hc a₂ h₂) (hS a₂ h₂).2).2.1
  have hr := (Box.edges_of_covers (hc a₃ h₃) (hS a₃ h₃).2).2.2.1
  have hbot := (Box.edges_of_covers (hc a₄ h₄) (hS a₄ h₄).2).2.2.2
  apply Box.covers_iff.mpr
  intro p hp
  rw [hcut, Box.mem_iff] at hp
  rw [Box.mem_iff]
  simp only [Box.right, Box.bottom] at *
  omega

end Around

end Edges

namespace Box

/-- The boxes of a list that have points. -/
def occupied (bs : List Box) : Set Box := {b | b ∈ bs ∧ b.isEmpty = false}

/-- The smallest rectangle around some boxes as a box, cut off where a side is too long. -/
inductive IsHull (S : Set Box) : Box → Prop
  | empty : S = ∅ → IsHull S Box.empty
  | cut (e : Edges) : e.Around S → IsHull S e.cut

variable {a b c : Box} {bs bs' : List Box} {S : Set Box}

namespace IsHull

theorem canonical (h : IsHull S a) : a.Canonical := by
  cases h with
  | empty => exact canonical_empty
  | cut e he => exact canonical_ofEdges _ _ _ _

theorem unique (h : IsHull S a) (h' : IsHull S b) : a = b := by
  cases h with
  | empty hS =>
    cases h' with
    | empty => rfl
    | cut e he => exact absurd hS he.nonempty.ne_empty
  | cut e he =>
    cases h' with
    | empty hS => exact absurd hS he.nonempty.ne_empty
    | cut f hf => rw [he.unique hf]

/-- One more box: that the hull so far may have been cut off makes no difference. -/
theorem union (h : IsHull S a) (hS : ∀ b ∈ S, b.InRange ∧ b.isEmpty = false)
    (hb : b.Canonical) (hne : b.isEmpty = false) : IsHull (insert b S) (a.union b) := by
  cases h with
  | empty hS =>
    rw [hS, insert_empty_eq, empty_union]
    have hcut := IsHull.cut _ (Edges.around_singleton b)
    rw [Edges.cut_ofBox hb.toInRange hne] at hcut
    exact hcut
  | cut e he =>
    rw [(he.proper hS).union_cut hb.toInRange hne]
    exact .cut _ (he.insert b)

end IsHull

theorem occupied_nil : occupied [] = ∅ := by
  ext b
  simp [occupied]

theorem occupied_concat (hb : b.isEmpty = false) :
    occupied (bs ++ [b]) = insert b (occupied bs) := by
  ext c
  simp only [occupied, List.mem_append, List.mem_singleton, Set.mem_ofPred_eq, Set.mem_insert_iff]
  constructor
  · rintro ⟨hc | rfl, hne⟩
    · exact .inr ⟨hc, hne⟩
    · exact .inl rfl
  · rintro (rfl | ⟨hc, hne⟩)
    · exact ⟨.inr rfl, hb⟩
    · exact ⟨.inl hc, hne⟩

theorem occupied_concat_empty : occupied (bs ++ [empty]) = occupied bs := by
  ext c
  simp only [occupied, List.mem_append, List.mem_singleton, Set.mem_ofPred_eq]
  constructor
  · rintro ⟨hc | rfl, hne⟩
    · exact ⟨hc, hne⟩
    · exact absurd hne (by decide)
  · rintro ⟨hc, hne⟩
    exact ⟨.inl hc, hne⟩

theorem occupied_inRange (h : ∀ b ∈ bs, b.Canonical) :
    ∀ b ∈ occupied bs, b.InRange ∧ b.isEmpty = false := by
  rintro b ⟨hb, hne⟩
  exact ⟨(h b hb).toInRange, hne⟩

theorem isHull_foldl (h : ∀ b ∈ bs, b.Canonical) :
    IsHull (occupied bs) (bs.foldl Box.union empty) := by
  induction bs using List.reverseRecOn with
  | nil => exact .empty occupied_nil
  | append_singleton bs b ih =>
    have hbs : ∀ c ∈ bs, c.Canonical := fun c hc => h c (List.mem_append_left _ hc)
    have hb : b.Canonical := h b (List.mem_append_right _ (List.mem_singleton_self b))
    rw [List.foldl_append, List.foldl_cons, List.foldl_nil]
    cases hempty : b.isEmpty with
    | true =>
      rw [hb.eq_empty hempty, occupied_concat_empty, (ih hbs).canonical.union_empty]
      exact ih hbs
    | false =>
      rw [occupied_concat hempty]
      exact (ih hbs).union (occupied_inRange hbs) hb hempty

theorem foldl_union_perm (h : ∀ b ∈ bs, b.Canonical) (hperm : bs'.Perm bs) :
    bs'.foldl Box.union empty = bs.foldl Box.union empty := by
  have h' : ∀ b ∈ bs', b.Canonical := fun b hb => h b (hperm.mem_iff.mp hb)
  have hsame : occupied bs' = occupied bs := by
    ext b
    exact and_congr_left fun _ => hperm.mem_iff
  have hhull := isHull_foldl h'
  rw [hsame] at hhull
  exact hhull.unique (isHull_foldl h)

section Laws
variable (ha : a.Canonical) (hb : b.Canonical) (hc : c.Canonical)
include ha hb hc

theorem Canonical.union_assoc : (a.union b).union c = a.union (b.union c) := by
  have hall : ∀ d ∈ [b, c, a], d.Canonical := by
    simp only [List.forall_mem_cons]
    exact ⟨hb, hc, ha, fun d hd => absurd hd List.not_mem_nil⟩
  have hturn : ([a] ++ [b, c]).Perm ([b, c] ++ [a]) := List.perm_append_comm
  have hfold := foldl_union_perm hall hturn
  simp only [List.cons_append, List.nil_append, List.foldl_cons, List.foldl_nil,
    empty_union] at hfold
  rw [hfold, (hb.union hc).union_comm ha]

/-- Uniting boxes is commutative, associative and idempotent, also where boxes are cut off, and the
empty box adds nothing. Any list of boxes, in any order, comes to the rectangle around those that have
points. Where that is not cut off it is the least box that covers them all. -/
theorem union_exact (h : ∀ d ∈ bs, d.Canonical) :
    (a.union b = b.union a ∧ (a.union b).union c = a.union (b.union c) ∧ a.union a = a ∧
      a.union empty = a ∧ empty.union a = a) ∧
    (∀ bs' : List Box, bs'.Perm bs → bs'.foldl Box.union empty = bs.foldl Box.union empty) ∧
    ((occupied bs = ∅ ∧ bs.foldl Box.union empty = empty) ∨
      ∃ e : Edges, e.Around (occupied bs) ∧
        bs.foldl Box.union empty = ⟨e.left, e.top, min (e.right - e.left).toNat sizeMax,
          min (e.bottom - e.top).toNat sizeMax⟩ ∧
        (e.right - e.left ≤ sizeMax → e.bottom - e.top ≤ sizeMax →
          (∀ d ∈ bs, (bs.foldl Box.union empty).covers d = true) ∧
          ∀ d : Box, d.Canonical → (∀ b ∈ bs, d.covers b = true) →
            d.covers (bs.foldl Box.union empty) = true)) := by
  refine ⟨⟨ha.union_comm hb, ha.union_assoc hb hc, ha.union_self, ha.union_empty,
    empty_union a⟩, fun bs' => foldl_union_perm h, ?_⟩
  have hS := occupied_inRange h
  have hhull := isHull_foldl h
  generalize bs.foldl Box.union empty = hull at hhull
  cases hhull with
  | empty hnone => exact .inl ⟨hnone, rfl⟩
  | cut e he =>
    refine .inr ⟨e, he, (he.proper hS).cut_eq, fun hw hh => ⟨?_, ?_⟩⟩
    · intro d hd
      cases hempty : d.isEmpty with
      | true => exact covers_iff.mpr fun p hp => absurd hp (not_mem_of_isEmpty hempty)
      | false => exact he.covers_cut hS hw hh ⟨hd, hempty⟩
    · intro d _ hd
      exact he.covers_of_forall hS fun b hb => hd b hb.1

omit ha hb hc

/-- A box at either end of the coordinates, one in between, and one without points. -/
def scattered : List Box :=
  [⟨coordMin, 0, 1, 1⟩, ⟨coordMax, 0, sizeMax, 1⟩, ⟨0, -5, 3, 2⟩, empty]

theorem union_exact_scattered :
    (∀ d ∈ scattered, d.Canonical) ∧
    scattered.reverse.foldl Box.union empty = scattered.foldl Box.union empty ∧
    ∃ e : Edges, e.Around (occupied scattered) ∧
      (scattered.foldl Box.union empty).w = min (e.right - e.left).toNat sizeMax := by
  have h : ∀ d ∈ scattered, d.Canonical := by decide
  obtain ⟨-, hperm, hhull⟩ := union_exact (a := ⟨coordMin, 0, 1, 1⟩)
    (b := ⟨coordMax, 0, sizeMax, 1⟩) (c := ⟨0, -5, 3, 2⟩) (by decide) (by decide) (by decide) h
  refine ⟨h, hperm _ (List.reverse_perm _), ?_⟩
  rcases hhull with ⟨hnone, -⟩ | ⟨e, he, hfold, -⟩
  · have hfirst : (⟨coordMin, 0, 1, 1⟩ : Box) ∈ occupied scattered :=
      ⟨List.mem_cons_self, by decide⟩
    rw [hnone] at hfirst
    exact absurd hfirst (Set.notMem_empty _)
  · exact ⟨e, he, congrArg Box.w hfold⟩

end Laws

end Box

end Scanline

import Scanline.Fuzz.CopyTrial
import Scanline.Proofs.Blit.Clipped
import Scanline.Proofs.Fuzz.Specimens
/-! Trials of clipped copies. The cells that a trial expects to be copied are those on which the
window lands, so that every pixel is as expected, the answered box is the box of these cells, and
the marked padding is still there. -/

namespace Scanline.Fuzz.CopyTrial

def landing (t : CopyTrial) (src dst : Frame) : Set Point :=
  t.window.landing t.target src.width src.height dst.width dst.height

def source (t : CopyTrial) (c : Point) : Point := c.back (t.window.offset t.target)

variable {t : CopyTrial} {src dst : Frame} {c : Nat × Nat}

theorem origin?_of_mem (h : (⟨c.1, c.2⟩ : Point) ∈ t.landing src dst) :
    t.origin? src c = some (t.source ⟨c.1, c.2⟩) :=
  if_pos ⟨h.2.2, h.2.1⟩

theorem origin?_of_not_mem (hc : c ∈ dst.cells) (h : (⟨c.1, c.2⟩ : Point) ∉ t.landing src dst) :
    t.origin? src c = none := by
  apply if_neg
  rintro ⟨hr, hsrc⟩
  exact h ⟨Frame.mem_bounds_of_mem_cells hc, hsrc, hr⟩

theorem isSome_origin?_iff (hc : c ∈ dst.cells) :
    (t.origin? src c).isSome = true ↔ (⟨c.1, c.2⟩ : Point) ∈ t.landing src dst := by
  by_cases h : (⟨c.1, c.2⟩ : Point) ∈ t.landing src dst
  · rw [origin?_of_mem h]
    exact iff_of_true rfl h
  · rw [origin?_of_not_mem hc h]
    exact iff_of_false Bool.false_ne_true h

def cellBox (c : Nat × Nat) : Box := Box.ofSize c.1 c.2 1 1

theorem mem_cellBox {p : Point} : p ∈ cellBox c ↔ p = ⟨c.1, c.2⟩ := by
  rcases p with ⟨x, y⟩
  rw [cellBox, Box.mem_ofSize, Point.mk.injEq]
  dsimp only
  omega

theorem canonical_cellBox {p : Pixmap} (hp : p.Valid) (hc : c ∈ p.cells) :
    (cellBox c).Canonical := by
  obtain ⟨hx, hy⟩ := Frame.mem_cells.mp hc
  have hw := hp.width_le
  have hh := hp.height_le
  simp only [coordMax] at hw hh
  apply Box.canonical_ofSize
  constructor
  all_goals
    simp only [coordMin, coordMax, sizeMax]
    omega

section Answer
variable {src before after : Pixmap} {box : Box} (hd : before.Valid)
  (h : Transferred src before (t.landing src.toFrame before.toFrame) t.source (box, after))
include hd h

theorem mismatch?_eq_none (hs : src.Valid) (hc : c ∈ after.cells) :
    t.mismatch? src before after c = .ok none := by
  have hafter : after.Valid := hd.congr h.frame_eq h.size_eq
  have hactual := hafter.getRaw_cell hc
  have hget := hafter.get_eq (Frame.mem_bounds_of_mem_cells hc)
  rw [h.frame_eq] at hc
  have hexpected : t.expected src before c = .ok (after.shown ⟨c.1, c.2⟩) := by
    by_cases hland : (⟨c.1, c.2⟩ : Point) ∈ t.landing src.toFrame before.toFrame
    · obtain ⟨v, w, hv, hw, hcopied⟩ := h.copied _ hland
      have hsource : t.source ⟨c.1, c.2⟩ ∈ src.bounds := hland.2.1
      rw [hs.get_eq hsource] at hv
      rw [hget] at hcopied
      rw [expected, origin?_of_mem hland]
      dsimp only
      rw [hs.getRaw_eq hsource, hv, ok_bind, hw, hcopied]
    · have huntouched := h.untouched _ (Frame.mem_bounds_of_mem_cells hc) hland
      rw [hget, hd.get_eq (Frame.mem_bounds_of_mem_cells hc)] at huntouched
      rw [expected, origin?_of_not_mem hc hland]
      dsimp only
      rw [hd.getRaw_cell hc, huntouched]
  rw [mismatch?, hexpected, hactual, ok_bind, ok_bind, if_pos rfl]
  rfl

theorem copied_eq_box : t.copied src.toFrame after.toFrame = box := by
  have hbox := h.canonical_box hd fun c hc => hc.1
  have hcells : ∀ b ∈ ((after.cells.filter fun c => (t.origin? src.toFrame c).isSome).map cellBox),
      b.Canonical ∧ box.covers b = true := by
    intro b hb
    obtain ⟨c, hc, rfl⟩ := List.mem_map.mp hb
    obtain ⟨hc, hcopied⟩ := List.mem_filter.mp hc
    rw [h.frame_eq] at hc
    refine ⟨canonical_cellBox hd hc, Box.covers_iff.mpr fun p hp => ?_⟩
    rw [mem_cellBox.mp hp]
    exact (h.mem_box _).mpr ((isSome_origin?_iff hc).mp hcopied)
  obtain ⟨hcanonical, hcovers, hmem⟩ := Box.foldl_union hbox.toInRange hcells Box.canonical_empty
    (Box.covers_iff.mpr fun p hp => absurd hp (Box.not_mem_empty p))
  rw [List.foldl_map] at hcanonical hcovers hmem
  apply hcanonical.ext hbox
  intro p
  constructor
  · exact Box.covers_iff.mp hcovers p
  · intro hp
    have hland := (h.mem_box p).mp hp
    obtain ⟨c, hc, rfl⟩ := Frame.exists_cell hland.1
    refine hmem _ (hd.onScreen hland.1) (.inr ⟨cellBox c, ?_, mem_cellBox.mpr rfl⟩)
    apply List.mem_map_of_mem
    rw [h.frame_eq]
    exact List.mem_filter.mpr ⟨hc, (isSome_origin?_iff hc).mpr hland⟩

end Answer

theorem judge_upheld (hs : t.src.Sound) (hd : t.dst.Sound) :
    ∃ v, t.judge.result = .ok v ∧ v.Upheld := by
  obtain ⟨src, hsrc, hblank⟩ := hs.exists_pixmap
  obtain ⟨dst, hdst, hblank'⟩ := hd.exists_pixmap
  obtain ⟨painted, hpainted, hsame⟩ := hblank.valid.exists_generate (pattern t.salt)
  obtain ⟨painted', hpainted', hsame'⟩ := hblank'.valid.exists_generate (pattern (~~~t.salt))
  obtain ⟨before, hbefore, hmarked, hpadded⟩ :=
    (hsame'.valid hblank'.valid).exists_fillPadding paddingMark
  have hvalid := hsame.valid hblank.valid
  have hvalid' := (hsame'.trans hmarked).valid hblank'.valid
  obtain ⟨⟨box, after⟩, hafter, h⟩ := hvalid.blitClipped hvalid'
    (by rw [hsame.frame_eq]; exact hblank.known)
    (by rw [(hsame'.trans hmarked).frame_eq]; exact hblank'.known) t.window t.target
  have hpadding : after.paddingIs paddingMark = .ok true := by
    apply (hvalid'.congr h.frame_eq h.size_eq).paddingIs_of_padded
    exact hvalid'.padded_of_kept hpadded h.frame_eq fun k hk => h.kept k fun c _ => hk c
  have hmatch : t.firstMismatch? painted before after = .ok none :=
    findSomeM?_eq_none fun c hc => mismatch?_eq_none hvalid' h hvalid hc
  have hcopied := copied_eq_box hvalid' h
  simp only [judge, Attempt.result_bind, Attempt.result_liftM, hsrc, hdst, hpainted, hpainted',
    hbefore, hafter, hpadding, ok_bind, Bool.not_true]
  rw [if_neg Bool.false_ne_true]
  simp only [Attempt.result_bind, Attempt.result_liftM, hmatch, ok_bind, hcopied]
  rw [if_neg (not_not_intro rfl)]
  split
  · exact ⟨_, rfl, .inr ⟨_, rfl⟩⟩
  · exact ⟨_, rfl, .inl rfl⟩

open Reader

theorem always_read : Always read fun t => t.src.Sound ∧ t.dst.Sound :=
  .bind Specimen.always_read fun _ hs => .bind Specimen.always_read fun _ hd =>
    .bind (.any _) fun _ _ => .bind (.any _) fun _ _ => .bind (.any _) fun _ _ =>
      .bind (.any _) fun _ _ => .bind (.any _) fun _ _ => .bind (.any _) fun _ _ =>
        .bind (.any _) fun _ _ => .pure ⟨hs, hd⟩

end Scanline.Fuzz.CopyTrial

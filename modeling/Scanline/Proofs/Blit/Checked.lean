import Scanline.Proofs.Blit.Clipped
import Scanline.Proofs.Pixmap.Reachable
/-! Checked copies against clipped ones. A checked copy refuses a window before anything is written
unless both pixmaps hold it whole, and there clipping leaves the window as it is. -/

namespace Scanline

/-- All of the window lies in one pixmap and, placed at a point, in another. -/
def Window.Whole (r : Window) (q : Point) (src dst : Frame) : Prop :=
  ∀ s ∈ r, s ∈ src.bounds ∧ s.ahead (r.offset q) ∈ dst.bounds

namespace Pixmap
variable {src dst : Pixmap} {r : Window} {q : Point}

/-- The checked copy of a window either refuses it or is the clipped copy of all of it. -/
structure CheckedCopy (src dst : Pixmap) (r : Window) (q : Point) : Prop where
  refused_iff : (∃ m, dst.blit src r q = .fail (.misuse m)) ↔ ¬r.Whole q src.toFrame dst.toFrame
  unchanged : ¬r.Whole q src.toFrame dst.toFrame → dst.edited (.blit src r q) = dst
  agrees : r.Whole q src.toFrame dst.toFrame → dst.blit src r q = dst.blitClipped src r q
  answered : r.Whole q src.toFrame dst.toFrame → ∃ out, (dst.blit src r q).result =
    .ok (⟨q.x, q.y, r.width.toNat, r.height.toNat⟩, out)

theorem whole_iff (hx : r.left ≤ r.right) (hy : r.top ≤ r.bottom) :
    r.Whole q src.toFrame dst.toFrame ↔
      r.isInside src.width src.height = true ∧ r.isInsideAt q dst.width dst.height = true :=
  Window.forall_mem_iff hx hy

theorem blit_eq_copyNoted (hsrc : r.isInside src.width src.height = true)
    (hdst : r.isInsideAt q dst.width dst.height = true) :
    dst.blit src r q = dst.copyNoted src (r.place q) := by
  rw [Pixmap.blit, placed, hsrc, hdst]
  rfl

theorem blit_eq_blitClipped (hx : r.left ≤ r.right) (hy : r.top ≤ r.bottom)
    (h : r.isInside src.width src.height = true ∧ r.isInsideAt q dst.width dst.height = true) :
    dst.blit src r q = dst.blitClipped src r q := by
  rw [blit_eq_copyNoted h.1 h.2, Pixmap.blitClipped,
    (Window.clipped?_eq_place_iff hx hy).mpr h]

variable (hs : src.Valid) (hd : dst.Valid) (hsf : src.format.Known) (hdf : dst.format.Known)
include hs hd hsf hdf

theorem Valid.checkedCopy (hx : r.left ≤ r.right) (hy : r.top ≤ r.bottom) (q : Point) :
    CheckedCopy src dst r q := by
  have hrefused (h : ¬r.Whole q src.toFrame dst.toFrame) :
      ∃ m, dst.blit src r q = .fail (.misuse m) :=
    blit_refused fun hin => h ((whole_iff hx hy).mpr hin)
  have hanswered (h : r.Whole q src.toFrame dst.toFrame) : ∃ out, (dst.blit src r q).result =
      .ok (⟨q.x, q.y, r.width.toNat, r.height.toNat⟩, out) := by
    obtain ⟨hsrc, hdst⟩ := (whole_iff hx hy).mp h
    obtain ⟨hin, -, -⟩ := Window.place_inside hsrc hdst hx hy
    obtain ⟨out, hout, -⟩ := hs.copyNoted hd hsf hdf hin
    rw [hin.target_eq hd.width_le hd.height_le] at hout
    exact ⟨out, by rw [blit_eq_copyNoted hsrc hdst, hout]; rfl⟩
  refine ⟨⟨?_, hrefused⟩, ?_, ?_, hanswered⟩
  · rintro ⟨m, hm⟩ h
    obtain ⟨out, hout⟩ := hanswered h
    rw [hm] at hout
    cases hout
  · intro h
    obtain ⟨m, hm⟩ := placed_refused fun hin => h ((whole_iff hx hy).mpr hin)
    exact edited_blit_of_refused hm
  · intro h
    exact blit_eq_blitClipped hx hy ((whole_iff hx hy).mp h)

/-- Of two corners a checked copy takes the whole window or refuses it, and clips nothing. Of an
origin and a size, both copies take the window through the first and the last of its points, and
nothing if there is none. -/
theorem blit_checked_exact :
    (∀ a b q : Point, CheckedCopy src dst (.ofCorners a b) q) ∧
    (∀ (x y : Int) (w h : Nat) (q : Point), 0 < w → 0 < h →
      dst.blitSized src x y w h q =
        dst.blit src (.ofCorners ⟨x, y⟩ ⟨x + w - 1, y + h - 1⟩) q ∧
      dst.blitSizedClipped src x y w h q =
        dst.blitClipped src (.ofCorners ⟨x, y⟩ ⟨x + w - 1, y + h - 1⟩) q) ∧
    ∀ (x y : Int) (w h : Nat) (q : Point), w = 0 ∨ h = 0 →
      dst.blitSized src x y w h q = .ok (Box.empty, dst) ∧
      dst.blitSizedClipped src x y w h q = .ok (Box.empty, dst) := by
  refine ⟨?_, ?_, ?_⟩
  · intro a b q
    obtain ⟨hx, hy⟩ := Window.ofCorners_le a b
    exact hs.checkedCopy hd hsf hdf hx hy q
  · intro x y w h q hw hh
    rw [blitSized, blitSizedClipped, Window.ofSize?_eq_ofCorners hw hh]
    exact ⟨rfl, rfl⟩
  · intro x y w h q hzero
    rw [blitSized, blitSizedClipped, Window.ofSize?, if_pos hzero]
    exact ⟨rfl, rfl⟩

omit hs hd hsf hdf in
theorem blit_checked_exact_sample :
    (∃ m, sample16.blit sample (.ofCorners ⟨5, 0⟩ ⟨0, 0⟩) ⟨0, 0⟩ = .fail (.misuse m)) ∧
    (∃ out, (sample16.blit sample (.ofCorners ⟨1, 1⟩ ⟨0, 0⟩) ⟨0, 0⟩).result =
      .ok (⟨0, 0, 2, 2⟩, out)) ∧
    sample16.blitSized sample 0 0 0 9 ⟨7, 7⟩ = .ok (Box.empty, sample16) := by
  obtain ⟨hcorners, -, hnone⟩ := blit_checked_exact sample_valid sample16_valid
    (Format.known_of_mem_standard (by decide)) (Format.known_of_mem_standard (by decide))
  refine ⟨?_, ?_, (hnone 0 0 0 9 ⟨7, 7⟩ (.inl rfl)).1⟩
  · refine (hcorners ⟨5, 0⟩ ⟨0, 0⟩ ⟨0, 0⟩).refused_iff.mpr ?_
    intro h
    exact absurd (h ⟨5, 0⟩ (by decide)).1 (by decide)
  · refine (hcorners ⟨1, 1⟩ ⟨0, 0⟩ ⟨0, 0⟩).answered ?_
    rw [whole_iff (by decide) (by decide)]
    decide

end Pixmap

end Scanline

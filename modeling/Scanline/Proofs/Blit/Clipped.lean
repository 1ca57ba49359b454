import Scanline.Proofs.Blit.Copy
/-! Copies of windows. A clipped copy takes exactly the part of its window that both pixmaps hold;
a checked copy takes all of it or refuses. -/

namespace Scanline.Pixmap
variable {src dst : Pixmap} (hs : src.Valid) (hd : dst.Valid) (hsf : src.format.Known)
  (hdf : dst.format.Known)
include hs hd hsf hdf

/-- A block of the points on which a window lands is copied as the window is. -/
theorem Valid.copyNoted_landing {b : Block} {r : Window} {q : Point}
    (hb : b.Inside src.width src.height dst.width dst.height) (hoff : b.offset = r.offset q)
    (hcells : b.cells = r.landing q src.width src.height dst.width dst.height) :
    ∃ answer, (dst.copyNoted src b).result = .ok answer ∧
      Transferred src dst (r.landing q src.width src.height dst.width dst.height)
        (·.back (r.offset q)) answer := by
  obtain ⟨out, hout, h⟩ := hs.copyNoted hd hsf hdf hb
  rw [hcells, hoff] at h
  refine ⟨(b.target, out), hout, hs.transferred hd hsf hdf h (fun c hc => hc.1)
    (fun c hc => hc.2.1) ?_ ?_⟩
  · intro c
    rw [hb.mem_target hd.width_le hd.height_le, hcells]
  · exact fun hnone => absurd (hcells.trans hnone) hb.cells_ne_empty

theorem Valid.blitClipped (r : Window) (q : Point) :
    ∃ answer, (dst.blitClipped src r q).result = .ok answer ∧
      Transferred src dst (r.landing q src.width src.height dst.width dst.height)
        (·.back (r.offset q)) answer := by
  unfold Pixmap.blitClipped
  split
  · rename_i hnone
    rw [Set.eq_empty_of_forall_notMem fun c => Window.not_mem_landing hnone]
    exact ⟨_, rfl, hs.transferred_empty hd hsf hdf _⟩
  · rename_i b hb
    obtain ⟨hin, hoff, hcells⟩ := Window.clipped?_eq_some hb
    exact hs.copyNoted_landing hd hsf hdf hin hoff hcells

theorem Valid.blitSizedClipped (x y : Int) (w h : Nat) (q : Point) :
    ∃ answer, (dst.blitSizedClipped src x y w h q).result = .ok answer ∧
      Transferred src dst ((⟨x, y, x + w - 1, y + h - 1⟩ : Window).landing q src.width src.height
        dst.width dst.height) (·.back ⟨q.x - x, q.y - y⟩) answer := by
  unfold Pixmap.blitSizedClipped onWindow
  split
  · rename_i hnone
    have hzero := Window.ofSize?_eq_none hnone
    rw [Window.landing_eq_empty (by dsimp only; omega)]
    exact ⟨_, rfl, hs.transferred_empty hd hsf hdf _⟩
  · rename_i r hr
    obtain ⟨-, -, rfl⟩ := Window.ofSize?_eq_some hr
    exact hs.blitClipped hd hsf hdf _ q

theorem Valid.blit {r : Window} {q : Point} (hx : r.left ≤ r.right) (hy : r.top ≤ r.bottom)
    (hsrc : r.isInside src.width src.height = true)
    (hdst : r.isInsideAt q dst.width dst.height = true) :
    ∃ answer, (dst.blit src r q).result = .ok answer ∧
      Transferred src dst (r.landing q src.width src.height dst.width dst.height)
        (·.back (r.offset q)) answer := by
  obtain ⟨hin, hoff, hcells⟩ := Window.place_inside hsrc hdst hx hy
  rw [Pixmap.blit, placed, hsrc, hdst]
  exact hs.copyNoted_landing hd hsf hdf hin hoff hcells

theorem Valid.blitSized {x y : Int} {w h : Nat} {q : Point}
    (hfit : ∀ s ∈ Box.ofSize x y w h, s ∈ src.bounds ∧ s.ahead ⟨q.x - x, q.y - y⟩ ∈ dst.bounds) :
    ∃ answer, (dst.blitSized src x y w h q).result = .ok answer ∧
      Transferred src dst ((⟨x, y, x + w - 1, y + h - 1⟩ : Window).landing q src.width src.height
        dst.width dst.height) (·.back ⟨q.x - x, q.y - y⟩) answer := by
  unfold Pixmap.blitSized onWindow
  split
  · rename_i hnone
    have hzero := Window.ofSize?_eq_none hnone
    rw [Window.landing_eq_empty (by dsimp only; omega)]
    exact ⟨_, rfl, hs.transferred_empty hd hsf hdf _⟩
  · rename_i r hr
    have hmem := fun c => Window.mem_of_ofSize? (c := c) hr
    obtain ⟨hw, hh, rfl⟩ := Window.ofSize?_eq_some hr
    obtain ⟨hin, hinAt⟩ := (Window.forall_mem_iff (by dsimp only; omega) (by dsimp only; omega)).mp
      fun s h => hfit s ((hmem s).mp h)
    exact hs.blit hd hsf hdf (by dsimp only; omega) (by dsimp only; omega) hin hinAt

/-- A box of the source is copied to a box of its size in the destination. -/
theorem Valid.blitSized_boxes {s t : Box} (hw : t.w = s.w) (hh : t.h = s.h)
    (hsrc : 0 ≤ s.x ∧ 0 ≤ s.y ∧ s.x + s.w ≤ src.width ∧ s.y + s.h ≤ src.height)
    (hdst : 0 ≤ t.x ∧ 0 ≤ t.y ∧ t.x + t.w ≤ dst.width ∧ t.y + t.h ≤ dst.height) :
    ∃ answer, (dst.blitSized src s.x s.y s.w s.h ⟨t.x, t.y⟩).result = .ok answer ∧
      Transferred src dst {c | c ∈ t} (·.back ⟨t.x - s.x, t.y - s.y⟩) answer := by
  obtain ⟨answer, hok, h⟩ := hs.blitSized hd hsf hdf (x := s.x) (y := s.y) (w := s.w) (h := s.h)
    (q := ⟨t.x, t.y⟩) fun c hc => by
      simp only [Frame.bounds, Box.mem_ofSize, Point.ahead] at hc ⊢
      omega
  refine ⟨answer, hok, h.congr (Set.ext fun c => ?_) fun _ _ => rfl⟩
  rw [Window.mem_landing, Set.mem_ofPred_eq, Box.mem_iff]
  simp only [Box.right, Box.bottom]
  omega

omit hs hd hsf hdf in
theorem placed_refused {r : Window} {q : Point}
    (h : ¬(r.isInside src.width src.height = true ∧ r.isInsideAt q dst.width dst.height = true)) :
    ∃ m, placed src.toFrame dst.toFrame r q = .error m := by
  unfold placed
  cases hsrc : r.isInside src.width src.height with
  | false => exact ⟨_, rfl⟩
  | true =>
    cases hdst : r.isInsideAt q dst.width dst.height with
    | false => exact ⟨_, rfl⟩
    | true => exact absurd ⟨hsrc, hdst⟩ h

omit hs hd hsf hdf in
theorem blit_refused {r : Window} {q : Point}
    (h : ¬(r.isInside src.width src.height = true ∧ r.isInsideAt q dst.width dst.height = true)) :
    ∃ m, dst.blit src r q = .fail (.misuse m) := by
  obtain ⟨m, hm⟩ := placed_refused h
  exact ⟨m, by rw [Pixmap.blit, hm]⟩

omit hs hd hsf hdf in
theorem blitSized_refused {x y : Int} {w h : Nat} {q : Point}
    (hfit : ¬∀ s ∈ Box.ofSize x y w h,
      s ∈ src.bounds ∧ s.ahead ⟨q.x - x, q.y - y⟩ ∈ dst.bounds) :
    ∃ m, dst.blitSized src x y w h q = .fail (.misuse m) := by
  unfold Pixmap.blitSized onWindow
  split
  · rename_i hnone
    have hzero := Window.ofSize?_eq_none hnone
    refine absurd (fun s hs => ?_) hfit
    rw [Box.mem_ofSize] at hs
    omega
  · rename_i r hr
    have hmem := fun c => Window.mem_of_ofSize? (c := c) hr
    obtain ⟨hw, hh, rfl⟩ := Window.ofSize?_eq_some hr
    refine blit_refused fun hin => hfit fun s hs => ?_
    exact (Window.forall_mem_iff (by dsimp only; omega) (by dsimp only; omega)).mpr hin s
      ((hmem s).mpr hs)

/-- Clipped copies never fail. Each point on which the window lands in both pixmaps gets the
converted pixel of its origin, nothing else changes, and the answer is the box of these points. -/
theorem blitClipped_exact (q : Point) :
    (∀ a b : Point, ∃ answer, (dst.blitClipped src (.ofCorners a b) q).result = .ok answer ∧
      Transferred src dst ((Window.ofCorners a b).landing q src.width src.height dst.width
        dst.height) (·.back ⟨q.x - min a.x b.x, q.y - min a.y b.y⟩) answer) ∧
    ∀ (x y : Int) (w h : Nat), ∃ answer, (dst.blitSizedClipped src x y w h q).result = .ok answer ∧
      Transferred src dst ((⟨x, y, x + w - 1, y + h - 1⟩ : Window).landing q src.width src.height
        dst.width dst.height) (·.back ⟨q.x - x, q.y - y⟩) answer :=
  ⟨fun a b => hs.blitClipped hd hsf hdf (.ofCorners a b) q,
    fun x y w h => hs.blitSizedClipped hd hsf hdf x y w h q⟩

omit hs hd hsf hdf in
theorem blitClipped_exact_sample :
    ∃ answer, (sample16.blitClipped sample (.ofCorners ⟨5, 0⟩ ⟨0, 0⟩) ⟨-1, 1⟩).result = .ok answer ∧
      answer.2.get ⟨0, 1⟩ = .ok 0x52aa ∧ ⟨0, 0⟩ ∉ answer.1 := by
  obtain ⟨answer, hok, h⟩ := (blitClipped_exact sample_valid sample16_valid
    (Format.known_of_mem_standard (by decide)) (Format.known_of_mem_standard (by decide))
    ⟨-1, 1⟩).1 ⟨5, 0⟩ ⟨0, 0⟩
  obtain ⟨v, w, hv, hw, hget⟩ := h.copied ⟨0, 1⟩ (Window.mem_landing.mpr (by decide))
  obtain rfl : v = 1 := Except.ok.inj (hv.symm.trans rfl)
  refine ⟨answer, hok, ?_, ?_⟩
  · rw [hget, ← hw]
    rfl
  · rw [h.mem_box, Window.mem_landing]
    decide

end Scanline.Pixmap

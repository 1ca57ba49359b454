import Scanline.Fuzz.CircleTrial
import Scanline.Proofs.Box.Laws
import Scanline.Proofs.Fuzz.Specimens
import Scanline.Proofs.Shape.Outline
/-! Trials of circles and disks. On a blank canvas exactly the drawn points of the clip are lit, the
outline lies in the disk and both keep the distance that a trial asks for, and the box is the
bounding square inside the clip as soon as anything is lit. -/

namespace Scanline.Fuzz

/-- A blank canvas after a shape was drawn on it. -/
structure Drawn (canvas : Pixmap) (s : Shape) (q : Pixmap) : Prop where
  valid : q.Valid
  frame_eq : q.toFrame = canvas.toFrame
  lit_iff : ∀ c ∈ canvas.bounds, q.shown c ≠ 0 ↔ c ∈ canvas.clipRect ∧ c ∈ s.pixels

theorem Drawn.getRaw_cell {canvas q : Pixmap} {s : Shape} (h : Drawn canvas s q) {c : Nat × Nat}
    (hc : c ∈ canvas.cells) : q.getRaw c.1 c.2 = .ok (q.shown ⟨c.1, c.2⟩) :=
  h.valid.getRaw_cell (by rw [h.frame_eq]; exact hc)

theorem Drawn.exists_lit {canvas q : Pixmap} {s : Shape} (h : Drawn canvas s q)
    (hp : canvas.Valid) : ∃ cells, q.lit = .ok cells ∧
      (cells.isEmpty = true ↔ ∀ c ∈ canvas.clipRect, c ∉ s.pixels) := by
  refine ⟨_, h.valid.lit_eq, ?_⟩
  rw [List.isEmpty_iff, List.filter_eq_nil_iff, h.frame_eq]
  constructor
  · intro hnone c hclip hs
    obtain ⟨d, hd, rfl⟩ := Frame.exists_cell (hp.mem_bounds_of_mem_clipRect hclip)
    have hlit := (h.lit_iff _ (Frame.mem_bounds_of_mem_cells hd)).mpr ⟨hclip, hs⟩
    exact hnone d hd (bne_iff_ne.mpr hlit)
  · intro hnone d hd hlit
    obtain ⟨hclip, hs⟩ := (h.lit_iff _ (Frame.mem_bounds_of_mem_cells hd)).mp (bne_iff_ne.mp hlit)
    exact hnone _ hclip hs

theorem Specimen.Blank.draw {p : Pixmap} (h : Specimen.Blank p) (s : Shape) :
    ∃ q, p.draw s 1 = .ok (s.box.intersect p.clipRect, q) ∧ Drawn p s q := by
  obtain ⟨q, hq, hpainted⟩ := h.valid.draw s 1
  refine ⟨q, hq, hpainted.valid h.valid, hpainted.frame_eq, ?_⟩
  intro c hc
  have hone : (1 : Pixel) &&& p.format.depth.mask ≠ 0 := by
    cases p.format.depth
    all_goals decide
  by_cases hs : c ∈ p.clipRect ∧ c ∈ s.pixels
  · exact iff_of_true (by rw [hpainted.painted c hs hc]; exact hone) hs
  · exact iff_of_false (by rw [hpainted.shown_of_not_mem h.valid hc hs, h.shown_eq hc]; simp) hs

namespace CircleTrial

theorem square_axis {c r lo hi d : Int} (hlo : lo ≤ d) (hhi : d ≤ hi)
    (hd : ((d - c).natAbs : Int) ≤ r) (v : Int) :
    (min (max (c - r) lo) (min (c + r) hi) ≤ v ∧
      v ≤ max (max (c - r) lo) (min (c + r) hi)) ↔
      ((v - c).natAbs : Int) ≤ r ∧ lo ≤ v ∧ v ≤ hi := by
  omega

variable {t : CircleTrial} {canvas outline disk : Pixmap} (hp : canvas.Valid)
include hp

theorem covers_drawn (s : Shape) :
    canvas.clipRect.covers (s.box.intersect canvas.clipRect) = true := by
  apply Box.covers_iff.mpr
  intro p h
  exact (hp.clipRect_onScreen.mem_intersect.mp h).2

section Square
variable {d : Point} (hd : d ∈ canvas.clipRect) (hdisk : d ∈ Circle.disk t.center t.r)
include hd hdisk

omit hp in
theorem mem_square {p : Point} (hscreen : p.OnScreen) : p ∈ t.square canvas.clipRect ↔
    (((p.x - t.center.x).natAbs : Int) ≤ t.r ∧ ((p.y - t.center.y).natAbs : Int) ≤ t.r) ∧
      p ∈ canvas.clipRect := by
  obtain ⟨hx, hx', hy, hy'⟩ := Box.mem_iff.mp hd
  obtain ⟨hfitx, hfity⟩ := Circle.natAbs_le_of_mem_disk hdisk
  have haxis := square_axis hx (Int.le_sub_one_of_lt hx') hfitx p.x
  have haxis' := square_axis hy (Int.le_sub_one_of_lt hy') hfity p.y
  rw [square, Box.mem_ofCorners hscreen, Box.mem_iff]
  dsimp only [Box.lastX, Box.lastY]
  rw [← and_assoc, haxis, haxis']
  omega

theorem square_onScreen : (t.square canvas.clipRect).OnScreen := by
  have hon := hp.clipRect_onScreen
  obtain ⟨hfirst, hlast⟩ := Box.corners_mem (Box.not_isEmpty_of_mem hd)
  obtain ⟨hx, -, hy, -⟩ := hon _ hfirst
  obtain ⟨-, hx', -, hy'⟩ := hon _ hlast
  obtain ⟨hdx, hdx', hdy, hdy'⟩ := hon _ hd
  obtain ⟨hfitx, hfity⟩ := Circle.natAbs_le_of_mem_disk hdisk
  rw [Box.mem_iff] at hd
  dsimp only [Box.lastX, Box.lastY] at hx hy hx' hy'
  apply Box.OnScreen.ofCorners
  · constructor
    all_goals
      dsimp only
      omega
  · constructor
    all_goals
      dsimp only [Box.lastX, Box.lastY]
      omega

/-- Where a point of the disk lies in the clip, clipping leaves the bounding square. -/
theorem box_eq_square :
    (Circle.box t.center t.r).intersect canvas.clipRect = t.square canvas.clipRect := by
  have hr := (Circle.mem_disk.mp hdisk).1
  apply (Box.canonical_intersect _ _).ext (Box.canonical_ofEdges _ _ _ _)
  intro p
  constructor
  · intro h
    have hscreen := hp.clipRect_onScreen.intersect _ p h
    rw [Box.mem_intersect hscreen, Circle.mem_box hscreen hr] at h
    exact (mem_square hd hdisk hscreen).mpr h
  · intro h
    have hscreen := square_onScreen hp hd hdisk p h
    rw [Box.mem_intersect hscreen, Circle.mem_box hscreen hr]
    exact (mem_square hd hdisk hscreen).mp h

end Square

theorem misplaced?_eq_none (ho : Drawn canvas (.circle t.center t.r) outline)
    (hd : Drawn canvas (.disk t.center t.r) disk) {c : Nat × Nat} (hc : c ∈ canvas.cells) :
    t.misplaced? canvas.clipRect ((Circle.box t.center t.r).intersect canvas.clipRect) outline disk c
      = .ok none := by
  have hin := Frame.mem_bounds_of_mem_cells hc
  have hline := ho.lit_iff _ hin
  have hfull := hd.lit_iff _ hin
  rw [misplaced?, ho.getRaw_cell hc, hd.getRaw_cell hc]
  simp only [ok_bind]
  by_cases hlit : disk.shown ⟨c.1, c.2⟩ = 0
  · have hdark : outline.shown ⟨c.1, c.2⟩ = 0 := by
      by_contra hne
      obtain ⟨hclip, hmem⟩ := hline.mp hne
      exact hfull.mpr ⟨hclip, Circle.mem_disk_of_mem_outline hmem⟩ hlit
    rw [hlit, hdark]
    rfl
  · obtain ⟨hclip, hmem⟩ := hfull.mp hlit
    have hbox : _ ∈ (Circle.box t.center t.r).intersect canvas.clipRect :=
      hp.mem_drawn (s := .disk t.center t.r) hclip hmem
    have hnear : t.distance c ≤ t.r * t.r + t.r := Circle.distance_of_mem_disk hmem
    have hfar : (outline.shown ⟨c.1, c.2⟩ != 0) = true → t.r * t.r - t.r ≤ t.distance c :=
      fun hne => Circle.distance_of_mem_outline (hline.mp (bne_iff_ne.mp hne)).2
    have hplace := not_or.mpr ⟨not_not_intro hclip, not_not_intro hbox⟩
    rw [bne_iff_ne.mpr hlit, Bool.not_true, Bool.and_false, Bool.and_false,
      if_neg Bool.false_ne_true, if_neg hplace, if_neg Bool.false_ne_true, if_neg]
    · rfl
    · rintro (hgt | ⟨hne, hlt⟩)
      · exact absurd hnear (Int.not_le.mpr hgt)
      · exact absurd (hfar hne) (Int.not_le.mpr hlt)

theorem firstMisplaced?_eq_none (ho : Drawn canvas (.circle t.center t.r) outline)
    (hd : Drawn canvas (.disk t.center t.r) disk) :
    t.firstMisplaced? canvas.clipRect ((Circle.box t.center t.r).intersect canvas.clipRect) outline
      disk = .ok none := by
  apply findSomeM?_eq_none
  intro c hc
  rw [ho.frame_eq] at hc
  exact misplaced?_eq_none hp ho hd hc

theorem eq_square_of_lit {lit lit' : List (Nat × Nat)}
    (hlit : lit.isEmpty = true ↔ ∀ c ∈ canvas.clipRect, c ∉ Circle.outline t.center t.r)
    (hlit' : lit'.isEmpty = true ↔ ∀ c ∈ canvas.clipRect, c ∉ Circle.disk t.center t.r)
    (h : (lit.isEmpty && lit'.isEmpty) = false) :
    (Circle.box t.center t.r).intersect canvas.clipRect = t.square canvas.clipRect := by
  by_contra hne
  have hdisk : ∀ c ∈ canvas.clipRect, c ∉ Circle.disk t.center t.r :=
    fun c hc hmem => hne (box_eq_square hp hc hmem)
  have hline : ∀ c ∈ canvas.clipRect, c ∉ Circle.outline t.center t.r :=
    fun c hc hmem => hdisk c hc (Circle.mem_disk_of_mem_outline hmem)
  rw [hlit.mpr hline, hlit'.mpr hdisk] at h
  exact Bool.noConfusion h

omit hp in
theorem judge_upheld (h : t.specimen.Sound) : ∃ v, t.judge.result = .ok v ∧ v.Upheld := by
  obtain ⟨p, hok, hblank⟩ := h.exists_pixmap
  have hcanvas := hblank.setClip t.clip
  have hp := hcanvas.valid
  obtain ⟨outline, hoq, ho⟩ := hcanvas.draw (.circle t.center t.r)
  obtain ⟨disk, hdq, hd⟩ := hcanvas.draw (.disk t.center t.r)
  obtain ⟨lit, hol, hlit⟩ := ho.exists_lit hp
  obtain ⟨lit', hdl, hlit'⟩ := hd.exists_lit hp
  simp only [judge, Attempt.result_bind, Attempt.result_liftM, hok, hoq, hdq, ok_bind, Shape.box]
  generalize p.setClip t.clip = canvas at *
  have hplaced := firstMisplaced?_eq_none hp ho hd
  have hcovers := covers_drawn hp (.circle t.center t.r)
  rw [Shape.box] at hcovers
  have hneg : ¬(decide (t.r < 0) &&
      !((Circle.box t.center t.r).intersect canvas.clipRect).isEmpty) = true := by
    rw [Bool.and_eq_true, decide_eq_true_eq, Bool.not_eq_true']
    rintro ⟨hr, hpixels⟩
    exact absurd (Shape.radius_nonneg (Bool.eq_false_iff.mp hpixels)) (Int.not_le.mpr hr)
  have hsquare : ¬(!(lit.isEmpty && lit'.isEmpty) &&
      (Circle.box t.center t.r).intersect canvas.clipRect != t.square canvas.clipRect) = true := by
    rw [Bool.and_eq_true, Bool.not_eq_true', bne_iff_ne]
    rintro ⟨htouched, hne⟩
    exact hne (eq_square_of_lit hp hlit hlit' htouched)
  rw [if_neg (not_not_intro rfl), hcovers, Bool.not_true, if_neg Bool.false_ne_true, if_neg hneg]
  simp only [Attempt.result_bind, Attempt.result_liftM, hplaced, ok_bind, hol, hdl]
  rw [if_neg hsquare]
  split
  · exact ⟨_, rfl, .inr ⟨_, rfl⟩⟩
  · exact ⟨_, rfl, .inl rfl⟩

open Reader in
omit hp in
theorem always_read : Always read fun t => t.specimen.Sound :=
  .bind Specimen.always_read fun _ h => .bind (.any _) fun _ _ => .bind (.any _) fun _ _ =>
    .bind (.any _) fun _ _ => .bind (.any _) fun _ _ => .pure h

end CircleTrial

end Scanline.Fuzz

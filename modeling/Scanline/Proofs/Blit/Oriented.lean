import Scanline.Blit.Oriented
import Scanline.Proofs.Blit.Clipped
import Scanline.Proofs.Pixmap.Oriented
import Scanline.Proofs.Pixmap.Reachable
/-! Copies between oriented pixmaps. Whether the block is copied as it lies in the buffers or pixel
by pixel, the oriented pixels of the destination get those of the source, and the box of the
buffer that is answered holds exactly the pixels that show the block. -/

namespace Scanline

/-- What an oriented copy answers: each oriented point of `L` shows the converted pixel of its
origin, no bit of the buffer that belongs to none of them has changed, and the box holds exactly
the points of the buffer that show `L`. -/
structure TransferredOriented (src dst : Pixmap) (L : Set Point) (origin : Point → Point)
    (answer : Box × Pixmap) : Prop where
  frame_eq : answer.2.toFrame = dst.toFrame
  size_eq : answer.2.data.size = dst.data.size
  copied : ∀ p ∈ L, ∃ v w, src.getOriented (origin p) = .ok v ∧
    src.format.convert v dst.format = .ok w ∧ answer.2.getOriented p = .ok w
  untouched : ∀ p ∈ dst.orientedBounds, p ∉ L → answer.2.getOriented p = dst.getOriented p
  kept : ∀ k, (∀ p ∈ L, ¬dst.Owns (dst.transformPoint p) k) →
    bitAt answer.2.data k = bitAt dst.data k
  mem_box : ∀ c, c ∈ answer.1 ↔ ∃ p ∈ L, dst.transformPoint p = c
  box_eq_empty : L = ∅ → answer.1 = Box.empty

namespace Pixmap
variable {src dst : Pixmap}

/-- The point of the source buffer whose pixel a point of the destination buffer gets. -/
def orientedOrigin (src dst : Frame) (o c : Point) : Point :=
  src.transformPoint ((dst.restorePoint c).back o)

variable (hs : src.Valid) (hd : dst.Valid)

section Blocks
variable {b : Block}
  (hb : b.Inside src.orientedWidth src.orientedHeight dst.orientedWidth dst.orientedHeight)
include hb

theorem cells_shown {p : Point} (hp : p ∈ b.cells) :
    p ∈ dst.orientedBounds ∧ p.back b.offset ∈ src.orientedBounds := by
  obtain ⟨-, -, hsx, hsy, hsx', hsy', hdx, hdy, hdx', hdy'⟩ := hb
  rw [Block.mem_cells] at hp
  simp only [Frame.orientedBounds, Box.mem_ofSize, Point.back, Block.offset]
  omega

theorem origins_shown {p : Point} (hp : p ∈ b.origins) : p ∈ src.orientedBounds := by
  have hcells := (cells_shown hb (Block.ahead_mem_cells.mpr hp)).2
  rwa [Point.back_ahead] at hcells

include hs in
theorem Valid.source_eq : b.source = ⟨b.sx, b.sy, b.w.toNat, b.h.toNat⟩ :=
  hb.source_eq (Frame.orientedWidth_le hs.width_le hs.height_le)
    (Frame.orientedHeight_le hs.width_le hs.height_le)

include hd in
theorem Valid.target_eq : b.target = ⟨b.dx, b.dy, b.w.toNat, b.h.toNat⟩ :=
  hb.target_eq (Frame.orientedWidth_le hd.width_le hd.height_le)
    (Frame.orientedHeight_le hd.width_le hd.height_le)

include hs in
theorem Valid.shows_source : src.Shows b.source := by
  rw [hs.source_eq hb]
  exact .of_bounds hb.w_pos hb.h_pos hb.sx_nonneg hb.sy_nonneg hb.sx_le hb.sy_le

include hd in
theorem Valid.shows_target : dst.Shows b.target := by
  rw [hd.target_eq hb]
  exact .of_bounds hb.w_pos hb.h_pos hb.dx_nonneg hb.dy_nonneg hb.dx_le hb.dy_le

include hd in
/-- The answered box holds the points of the buffer that show the block. -/
theorem Valid.mem_transformBox_target {c : Point} :
    c ∈ dst.transformBox b.target ↔ c ∈ dst.transformPoint '' b.cells := by
  rw [Frame.mem_transformBox hd.width_le hd.height_le (hd.shows_target hb),
    hb.mem_target (Frame.orientedWidth_le hd.width_le hd.height_le)
      (Frame.orientedHeight_le hd.width_le hd.height_le),
    Frame.mem_image_transformPoint hd.width_le hd.height_le fun p hp => (cells_shown hb hp).1]

include hs in
theorem Valid.mem_transformBox_source {c : Point} :
    c ∈ src.transformBox b.source ↔ c ∈ src.transformPoint '' b.origins := by
  rw [Frame.mem_transformBox hs.width_le hs.height_le (hs.shows_source hb),
    hb.mem_source (Frame.orientedWidth_le hs.width_le hs.height_le)
      (Frame.orientedHeight_le hs.width_le hs.height_le),
    Frame.mem_image_transformPoint hs.width_le hs.height_le fun p hp => origins_shown hb hp]

end Blocks

section Pixels
variable (hsf : src.format.Known) (hdf : dst.format.Known) {b : Block}
  (hb : b.Inside src.orientedWidth src.orientedHeight dst.orientedWidth dst.orientedHeight)
include hs hd hsf hdf hb

theorem Valid.copyOrientedPixel {p : Point} (hp : p ∈ b.cells) :
    ∃ v w q, src.getRaw (src.transformPoint (p.back b.offset)).x.toNat
        (src.transformPoint (p.back b.offset)).y.toNat = .ok v ∧
      src.format.convert v dst.format = .ok w ∧
      dst.putRaw (dst.transformPoint p).x.toNat (dst.transformPoint p).y.toNat w = .ok q ∧
      Repainted dst q {dst.transformPoint p}
        (src.incoming dst.format (orientedOrigin src.toFrame dst.toFrame b.offset)) := by
  obtain ⟨hin, hsin⟩ := cells_shown hb hp
  have hsrc := (Frame.transformPoint_mem_iff hs.width_le hs.height_le).mpr hsin
  have hdst := (Frame.transformPoint_mem_iff hd.width_le hd.height_le).mpr hin
  obtain ⟨hconv, hmask⟩ := hsf.sound.convert_eq hdf.sound
    (src.shown (src.transformPoint (p.back b.offset)))
  obtain ⟨q, hq, h⟩ := hd.putRaw hdst (v := src.format.converted dst.format
      (src.shown (src.transformPoint (p.back b.offset))))
    (src.incoming dst.format (orientedOrigin src.toFrame dst.toFrame b.offset)) (by
      rw [hmask, incoming, orientedOrigin,
        Frame.restorePoint_transformPoint hd.width_le hd.height_le hin])
  exact ⟨_, _, q, hs.getRaw_eq hsrc, hconv, hq, h⟩

theorem Valid.copyOrientedPixels {j n i : Nat} (hj : (j : Int) < b.h)
    (hi : ((i + n : Nat) : Int) ≤ b.w) :
    ∃ q, Scanline.copyOrientedPixels src b j n i dst = .ok q ∧
      Repainted dst q
        (dst.transformPoint '' {p | p.y = b.dy + j ∧ b.dx + i ≤ p.x ∧ p.x < b.dx + i + n})
        (src.incoming dst.format (orientedOrigin src.toFrame dst.toFrame b.offset)) := by
  induction n generalizing dst i with
  | zero =>
    refine ⟨dst, rfl, .of_forall_notMem ?_⟩
    rintro c ⟨p, ⟨-, hp, hp'⟩, -⟩
    omega
  | succ n ih =>
    have hp : (⟨b.dx + i, b.dy + j⟩ : Point) ∈ b.cells :=
      Block.mem_cells.mpr (by dsimp only; omega)
    have hback : (⟨b.dx + i, b.dy + j⟩ : Point).back b.offset = ⟨b.sx + i, b.sy + j⟩ := by
      simp only [Point.back, Block.offset, Point.mk.injEq]
      omega
    obtain ⟨v, w, q, hv, hw, hq, h⟩ := hs.copyOrientedPixel hd hsf hdf hb hp
    rw [hback] at hv
    obtain ⟨r, hr, h'⟩ := ih (h.valid hd) (by rw [h.frame_eq]; exact hdf)
      (by rw [h.frame_eq]; exact hb) (i := i + 1) (by omega)
    rw [h.frame_eq] at h'
    refine ⟨r, ?_, (h.trans hd h').congr ?_ fun _ _ _ => rfl⟩
    · simp only [Scanline.copyOrientedPixels, hv, hw, hq, bind, Except.bind]
      exact hr
    · intro c _
      rw [← Set.image_singleton, ← Set.image_union]
      refine iff_of_eq (congrArg (fun A => c ∈ dst.transformPoint '' A) (Set.ext ?_))
      rintro ⟨px, py⟩
      simp only [Set.mem_union, Set.mem_singleton_iff, Set.mem_ofPred_eq, Point.mk.injEq]
      omega

theorem Valid.copyOrientedRows {n j : Nat} (hj : ((j + n : Nat) : Int) ≤ b.h) :
    ∃ q, Scanline.copyOrientedRows src b n j dst = .ok q ∧
      Repainted dst q
        (dst.transformPoint '' {p | p ∈ b.cells ∧ b.dy + j ≤ p.y ∧ p.y < b.dy + j + n})
        (src.incoming dst.format (orientedOrigin src.toFrame dst.toFrame b.offset)) := by
  induction n generalizing dst j with
  | zero =>
    refine ⟨dst, rfl, .of_forall_notMem ?_⟩
    rintro c ⟨p, ⟨-, hp, hp'⟩, -⟩
    omega
  | succ n ih =>
    have hw := hb.w_pos
    obtain ⟨q, hq, h⟩ := hs.copyOrientedPixels hd hsf hdf hb (j := j) (n := b.w.toNat) (i := 0)
      (by omega) (by omega)
    obtain ⟨r, hr, h'⟩ := ih (h.valid hd) (by rw [h.frame_eq]; exact hdf)
      (by rw [h.frame_eq]; exact hb) (j := j + 1) (by omega)
    rw [h.frame_eq] at h'
    refine ⟨r, ?_, (h.trans hd h').congr ?_ fun _ _ _ => rfl⟩
    · simp only [Scanline.copyOrientedRows, hq, bind, Except.bind]
      exact hr
    · intro c _
      rw [← Set.image_union]
      refine iff_of_eq (congrArg (fun A => c ∈ dst.transformPoint '' A) (Set.ext fun p => ?_))
      simp only [Set.mem_union, Set.mem_ofPred_eq, Block.mem_cells]
      omega

end Pixels

section Turned
variable {b : Block}
  (hb : b.Inside src.orientedWidth src.orientedHeight dst.orientedWidth dst.orientedHeight)
  (ho : src.orientation = dst.orientation)
include hs hd hb ho

/-- Both places of a block have one size in the buffers. -/
theorem Valid.transformBox_sizes :
    (dst.transformBox b.target).w = (src.transformBox b.source).w ∧
      (dst.transformBox b.target).h = (src.transformBox b.source).h := by
  rw [Frame.transformBox_eq hs.width_le hs.height_le (hs.shows_source hb),
    Frame.transformBox_eq hd.width_le hd.height_le (hd.shows_target hb), ho, hs.source_eq hb,
    hd.target_eq hb]
  cases dst.orientation.swapAxes with
  | false => exact ⟨rfl, rfl⟩
  | true => exact ⟨rfl, rfl⟩

/-- Where both orientations agree, points move in the buffers as the boxes do. -/
theorem Valid.back_eq_orientedOrigin {c : Point} (hc : dst.restorePoint c ∈ b.cells) :
    c.back ⟨(dst.transformBox b.target).x - (src.transformBox b.source).x,
        (dst.transformBox b.target).y - (src.transformBox b.source).y⟩ =
      orientedOrigin src.toFrame dst.toFrame b.offset c := by
  have hin := (cells_shown hb hc).2
  rw [orientedOrigin, Frame.transformPoint_eq hs.width_le hs.height_le hin,
    Frame.transformBox_eq hs.width_le hs.height_le (hs.shows_source hb),
    Frame.transformBox_eq hd.width_le hd.height_le (hd.shows_target hb), ho, hs.source_eq hb,
    hd.target_eq hb]
  simp only [Frame.restorePoint, Point.back, Block.offset]
  cases dst.orientation.swapAxes with
  | false =>
    simp only [Box.turn, Point.turn, Bool.false_eq_true, if_false, sub_reflectEdge_sub]
  | true =>
    simp only [Box.turn, Point.turn, if_true, sub_reflectEdge_sub]

variable (hsf : src.format.Known) (hdf : dst.format.Known)
include hsf hdf

theorem Valid.blitSized_turned :
    ∃ answer, (dst.blitSized src (src.transformBox b.source).x (src.transformBox b.source).y
        (src.transformBox b.source).w (src.transformBox b.source).h
        ⟨(dst.transformBox b.target).x, (dst.transformBox b.target).y⟩).result = .ok answer ∧
      Transferred src dst (dst.transformPoint '' b.cells)
        (orientedOrigin src.toFrame dst.toFrame b.offset) answer := by
  have hsizes := hs.transformBox_sizes hd hb ho
  obtain ⟨answer, hok, h⟩ := hs.blitSized_boxes hd hsf hdf hsizes.1 hsizes.2
    (Frame.transformBox_fits hs.width_le hs.height_le (hs.shows_source hb))
    (Frame.transformBox_fits hd.width_le hd.height_le (hd.shows_target hb))
  refine ⟨answer, hok, h.congr (Set.ext fun c => hd.mem_transformBox_target hb) fun c hc => ?_⟩
  exact hs.back_eq_orientedOrigin hd hb ho
    ((Frame.mem_image_transformPoint hd.width_le hd.height_le
      fun p hp => (cells_shown hb hp).1).mp ((hd.mem_transformBox_target hb).mp hc))

end Turned

section Copies
variable (hsf : src.format.Known) (hdf : dst.format.Known)
include hs hd hsf hdf

theorem Valid.copyOriented {b : Block}
    (hb : b.Inside src.orientedWidth src.orientedHeight dst.orientedWidth dst.orientedHeight) :
    ∃ answer, (dst.copyOriented src b).result = .ok answer ∧
      Transferred src dst (dst.transformPoint '' b.cells)
        (orientedOrigin src.toFrame dst.toFrame b.offset) answer := by
  have hmem := fun c => hd.mem_transformBox_target hb (c := c)
  have hne : dst.transformPoint '' b.cells ≠ ∅ :=
    fun h => hb.cells_ne_empty (Set.image_eq_empty.mp h)
  unfold Pixmap.copyOriented
  dsimp only
  split
  · rename_i ho
    obtain ⟨copied, hok, h⟩ := hs.blitSized_turned hd hb ho hsf hdf
    refine ⟨(dst.transformBox b.target, copied.2), ?_, h.frame_eq, h.size_eq, h.copied,
      h.untouched, h.kept, hmem, fun hnone => absurd hnone hne⟩
    rw [Attempt.result_bind, hok]
    rfl
  · obtain ⟨q, hq, h⟩ := hs.copyOrientedRows hd hsf hdf hb (n := b.h.toNat) (j := 0)
      (by have := hb.h_pos; omega)
    have hrows : {p | p ∈ b.cells ∧ b.dy + (0 : Nat) ≤ p.y ∧ p.y < b.dy + (0 : Nat) + b.h.toNat} =
        b.cells := by
      ext p
      simp only [Set.mem_ofPred_eq, Block.mem_cells]
      omega
    rw [hrows] at h
    refine ⟨(dst.transformBox b.target, q), ?_, hs.transferred hd hsf hdf h ?_ ?_ hmem
      fun hnone => absurd hnone hne⟩
    · rw [Attempt.result_bind, Attempt.result_liftM, hq]
      rfl
    · rintro c ⟨p, hp, rfl⟩
      exact (Frame.transformPoint_mem_iff hd.width_le hd.height_le).mpr (cells_shown hb hp).1
    · rintro c ⟨p, hp, rfl⟩
      rw [orientedOrigin, Frame.restorePoint_transformPoint hd.width_le hd.height_le
        (cells_shown hb hp).1]
      exact (Frame.transformPoint_mem_iff hs.width_le hs.height_le).mpr (cells_shown hb hp).2

omit hs hsf hdf in
/-- A copy to the points that show a set, seen through the orientation. -/
theorem Valid.oriented {L : Set Point} {o : Point} {answer : Box × Pixmap}
    (h : Transferred src dst (dst.transformPoint '' L)
      (orientedOrigin src.toFrame dst.toFrame o) answer) (hL : ∀ p ∈ L, p ∈ dst.orientedBounds) :
    TransferredOriented src dst L (·.back o) answer := by
  have hshow : ∀ p, answer.2.getOriented p = answer.2.get (dst.transformPoint p) := by
    intro p
    rw [getOriented, h.frame_eq]
  refine ⟨h.frame_eq, h.size_eq, ?_, ?_, ?_, h.mem_box, ?_⟩
  · intro p hp
    obtain ⟨v, w, hv, hw, hget⟩ := h.copied _ (Set.mem_image_of_mem _ hp)
    rw [orientedOrigin, Frame.restorePoint_transformPoint hd.width_le hd.height_le (hL p hp)] at hv
    exact ⟨v, w, hv, hw, by rw [hshow, hget]⟩
  · intro p hp hpL
    rw [hshow, h.untouched _ ((Frame.transformPoint_mem_iff hd.width_le hd.height_le).mpr hp)]
    · rfl
    · rintro ⟨p', hp', heq⟩
      exact hpL ((Frame.transformPoint_eq_iff hd.width_le hd.height_le (hL p' hp')).mp heq ▸ hp')
  · intro k hk
    refine h.kept k ?_
    rintro c ⟨p, hp, rfl⟩
    exact hk p hp
  · exact fun hnone => h.box_eq_empty (by rw [hnone, Set.image_empty])

theorem Valid.copyOriented_landing {b : Block} {r : Window} {q : Point}
    (hb : b.Inside src.orientedWidth src.orientedHeight dst.orientedWidth dst.orientedHeight)
    (hoff : b.offset = r.offset q)
    (hcells : b.cells = r.landing q src.orientedWidth src.orientedHeight dst.orientedWidth
      dst.orientedHeight) :
    ∃ answer, (dst.copyOriented src b).result = .ok answer ∧
      TransferredOriented src dst (r.landing q src.orientedWidth src.orientedHeight
        dst.orientedWidth dst.orientedHeight) (·.back (r.offset q)) answer := by
  obtain ⟨answer, hok, h⟩ := hs.copyOriented hd hsf hdf hb
  rw [hcells, hoff] at h
  exact ⟨answer, hok, hd.oriented h fun p hp => hp.1⟩

theorem Valid.blitOriented {r : Window} {q : Point} (hx : r.left ≤ r.right) (hy : r.top ≤ r.bottom)
    (hsrc : r.isInside src.orientedWidth src.orientedHeight = true)
    (hdst : r.isInsideAt q dst.orientedWidth dst.orientedHeight = true) :
    ∃ answer, (dst.blitOriented src r q).result = .ok answer ∧
      TransferredOriented src dst (r.landing q src.orientedWidth src.orientedHeight
        dst.orientedWidth dst.orientedHeight) (·.back (r.offset q)) answer := by
  obtain ⟨hin, hoff, hcells⟩ := Window.place_inside hsrc hdst hx hy
  rw [Pixmap.blitOriented, placedOriented, hsrc, hdst]
  exact hs.copyOriented_landing hd hsf hdf hin hoff hcells

theorem Valid.blitOrientedClipped (r : Window) (q : Point) :
    ∃ answer, (dst.blitOrientedClipped src r q).result = .ok answer ∧
      TransferredOriented src dst (r.landing q src.orientedWidth src.orientedHeight
        dst.orientedWidth dst.orientedHeight) (·.back (r.offset q)) answer := by
  unfold Pixmap.blitOrientedClipped
  split
  · rename_i hnone
    rw [Set.eq_empty_of_forall_notMem fun c => Window.not_mem_landing hnone]
    have h := hs.transferred_empty hd hsf hdf
      (orientedOrigin src.toFrame dst.toFrame (r.offset q))
    rw [← Set.image_empty dst.transformPoint] at h
    exact ⟨_, rfl, hd.oriented h fun p hp => absurd hp (Set.notMem_empty p)⟩
  · rename_i b hb
    obtain ⟨hin, hoff, hcells⟩ := Window.clipped?_eq_some hb
    exact hs.copyOriented_landing hd hsf hdf hin hoff hcells

omit hs hd hsf hdf in
theorem placedOriented_refused {r : Window} {q : Point}
    (h : ¬(r.isInside src.orientedWidth src.orientedHeight = true ∧
      r.isInsideAt q dst.orientedWidth dst.orientedHeight = true)) :
    ∃ m, placedOriented src.toFrame dst.toFrame r q = .error m := by
  unfold placedOriented
  cases hsrc : r.isInside src.orientedWidth src.orientedHeight with
  | false => exact ⟨_, rfl⟩
  | true =>
    cases hdst : r.isInsideAt q dst.orientedWidth dst.orientedHeight with
    | false => exact ⟨_, rfl⟩
    | true => exact absurd ⟨hsrc, hdst⟩ h

/-- A checked copy is refused, before anything is copied, exactly if a point of the window or its
place lies outside what the orientations show, and then the destination stays as it was; a clipped
copy never fails. The oriented pixels of the window, or those that both pixmaps show of it, are
copied and nothing else changes. -/
theorem blitOriented_exact (a b q : Point) :
    ((∃ m, dst.blitOriented src (.ofCorners a b) q = .fail (.misuse m)) ↔
      ¬∀ s ∈ Window.ofCorners a b, s ∈ src.orientedBounds ∧
        s.ahead ((Window.ofCorners a b).offset q) ∈ dst.orientedBounds) ∧
    ((∃ m, dst.blitOriented src (.ofCorners a b) q = .fail (.misuse m)) →
      dst.edited (.blitOriented src (.ofCorners a b) q) = dst) ∧
    ((∀ s ∈ Window.ofCorners a b, s ∈ src.orientedBounds ∧
        s.ahead ((Window.ofCorners a b).offset q) ∈ dst.orientedBounds) →
      ∃ answer, (dst.blitOriented src (.ofCorners a b) q).result = .ok answer ∧
        TransferredOriented src dst
          {p | p.back ((Window.ofCorners a b).offset q) ∈ Window.ofCorners a b}
          (·.back ((Window.ofCorners a b).offset q)) answer) ∧
    ∃ answer, (dst.blitOrientedClipped src (.ofCorners a b) q).result = .ok answer ∧
      TransferredOriented src dst
        {p | p ∈ dst.orientedBounds ∧
          p.back ((Window.ofCorners a b).offset q) ∈ src.orientedBounds ∧
          p.back ((Window.ofCorners a b).offset q) ∈ Window.ofCorners a b}
        (·.back ((Window.ofCorners a b).offset q)) answer := by
  obtain ⟨hx, hy⟩ := Window.ofCorners_le a b
  simp only [Frame.orientedBounds]
  rw [Window.forall_mem_iff hx hy]
  have houtside : (∃ m, dst.blitOriented src (.ofCorners a b) q = .fail (.misuse m)) →
      ¬((Window.ofCorners a b).isInside src.orientedWidth src.orientedHeight = true ∧
        (Window.ofCorners a b).isInsideAt q dst.orientedWidth dst.orientedHeight = true) := by
    rintro ⟨m, hm⟩ ⟨hsrc, hdst⟩
    obtain ⟨answer, hok, -⟩ := hs.blitOriented hd hsf hdf hx hy hsrc hdst
    rw [hm] at hok
    simp only [Attempt.fail, reduceCtorEq] at hok
  refine ⟨⟨houtside, fun h => ?_⟩, fun h => ?_, ?_, hs.blitOrientedClipped hd hsf hdf _ q⟩
  · obtain ⟨m, hm⟩ := placedOriented_refused h
    exact ⟨m, by rw [Pixmap.blitOriented, hm]⟩
  · obtain ⟨m, hm⟩ := placedOriented_refused (houtside h)
    exact edited_blitOriented_of_refused hm
  · rintro ⟨hsrc, hdst⟩
    rw [← Window.landing_eq_of_inside hsrc hdst]
    exact hs.blitOriented hd hsf hdf hx hy hsrc hdst

omit hs hd hsf hdf in
theorem blitOriented_exact_sample :
    ∃ answer, (sample16.blitOriented sample (.ofCorners ⟨1, 1⟩ ⟨0, 0⟩) ⟨0, 0⟩).result =
      .ok answer ∧ answer.2.getOriented ⟨0, 1⟩ = .ok 0x52aa := by
  obtain ⟨-, -, hcopied, -⟩ := blitOriented_exact sample_valid sample16_valid
    (Format.known_of_mem_standard (by decide)) (Format.known_of_mem_standard (by decide))
    ⟨1, 1⟩ ⟨0, 0⟩ ⟨0, 0⟩
  obtain ⟨answer, hok, h⟩ := hcopied (by
    simp only [Frame.orientedBounds]
    rw [Window.forall_mem_iff (by decide) (by decide)]
    decide)
  obtain ⟨v, w, hv, hw, hget⟩ := h.copied ⟨0, 1⟩ (Window.mem_iff.mpr (by decide))
  obtain rfl : v = 1 := Except.ok.inj (hv.symm.trans rfl)
  exact ⟨answer, hok, by rw [hget, ← hw]; rfl⟩

end Copies

end Pixmap

end Scanline

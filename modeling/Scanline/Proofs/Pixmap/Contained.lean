import Scanline.Proofs.Blit.Oriented
import Scanline.Proofs.Pixmap.Reachable
/-! Accesses to the pixmaps that come about. Whatever the arguments, rows, pixels, shapes and
clipped copies stay inside the data. A format need not be sound here: a copy may still stop at a
pixel to which its format gives no color. -/

namespace Scanline.Pixmap

/-- How a copy of the pixels at `S` to a format ends that leaves neither buffer: with an answer, or
with the division by zero that gives one of these pixels no color. -/
inductive Ends (src : Pixmap) (g : Format) (S : Set Point) {α : Type} : Except Failure α → Prop
  | ok (a : α) : Ends src g S (.ok a)
  | colorless {c : Point} {v : Pixel} : c ∈ S → src.get c = .ok v →
      src.format.convert v g = .error (.fault .zeroDivision) →
      Ends src g S (.error (.fault .zeroDivision))

namespace Ends
variable {α β : Type} {src : Pixmap} {g : Format} {S T : Set Point} {r : Except Failure α}

theorem of_convert {c : Point} {v : Pixel} {e : Failure} (hc : c ∈ S) (hv : src.get c = .ok v)
    (he : src.format.convert v g = .error e) : Ends src g S (.error e : Except Failure α) := by
  obtain rfl := Format.eq_zeroDivision_of_convert he
  exact .colorless hc hv he

theorem mono (h : Ends src g S r) (hST : S ⊆ T) : Ends src g T r := by
  cases h with
  | ok a => exact .ok a
  | colorless hc hv he => exact .colorless (hST hc) hv he

theorem bind {f : α → Except Failure β} (h : Ends src g S r)
    (hf : ∀ a, r = .ok a → Ends src g S (f a)) : Ends src g S (r >>= f) := by
  cases h with
  | ok a => exact hf a rfl
  | colorless hc hv he => exact .colorless hc hv he

theorem fault_eq (h : Ends src g S r) {f : Fault} (hf : r = .error (.fault f)) :
    f = .zeroDivision := by
  cases h with
  | ok a => cases hf
  | colorless _ _ _ =>
    cases hf
    rfl

/-- Between formats that are known every pixel has a color. -/
theorem exists_ok (h : Ends src g S r) (hsf : src.format.Known) (hg : g.Known) :
    ∃ a, r = .ok a := by
  cases h with
  | ok a => exact ⟨a, rfl⟩
  | colorless _ _ he =>
    rw [(hsf.sound.convert_eq hg.sound _).1] at he
    exact absurd he nofun

end Ends

section Copies
variable {src dst : Pixmap} (hs : src.Valid) (hd : dst.Valid)
include hs hd

section Rows
variable {recode : Pixel → Except Failure Pixel} {g : Format} {S : Set Point}
  (hrec : ∀ v e, recode v = .error e → src.format.convert v g = .error e) {w n sx sy dx dy : Nat}
include hrec

theorem Valid.copyPixels_ends (hsy : sy < src.height) (hsx : sx + n ≤ src.width)
    (hdy : dy < dst.height) (hdx : dx + n ≤ dst.width)
    (hS : ∀ x : Nat, sx ≤ x → x < sx + n → (⟨x, sy⟩ : Point) ∈ S) :
    Ends src g S (Scanline.copyPixels src recode sy dy n sx dx dst) := by
  induction n generalizing dst sx dx with
  | zero => exact .ok dst
  | succ n ih =>
    have hsc : (⟨sx, sy⟩ : Point) ∈ src.bounds := Frame.mem_bounds_of_lt (by omega) hsy
    have hdc : (⟨dx, dy⟩ : Point) ∈ dst.bounds := Frame.mem_bounds_of_lt (by omega) hdy
    have hread := hs.read_eq hsc
    simp only [Int.toNat_natCast] at hread
    simp only [Scanline.copyPixels, hread]
    cases hu : recode (src.shown ⟨sx, sy⟩) with
    | error e =>
      exact .of_convert (hS sx (Nat.le_refl sx) (by omega)) (hs.get_eq hsc) (hrec _ e hu)
    | ok u =>
      obtain ⟨q, hq, h⟩ := hd.write hdc (v := u) (fun _ => u &&& dst.format.depth.mask) rfl
      simp only [Int.toNat_natCast] at hq
      simp only [hq]
      exact ih (h.valid hd) (by omega) (by rw [h.frame_eq]; exact hdy)
        (by rw [h.frame_eq]; omega) fun x hx hx' => hS x (by omega) (by omega)

theorem Valid.copyPixelRows_ends (hsy : sy + n ≤ src.height) (hsx : sx + w ≤ src.width)
    (hdy : dy + n ≤ dst.height) (hdx : dx + w ≤ dst.width)
    (hS : ∀ x y : Nat, sx ≤ x → x < sx + w → sy ≤ y → y < sy + n → (⟨x, y⟩ : Point) ∈ S) :
    Ends src g S (Scanline.copyPixelRows src recode w sx dx n sy dy dst) := by
  induction n generalizing dst sy dy with
  | zero => exact .ok dst
  | succ n ih =>
    have hsy' : sy < src.height := by omega
    have hdy' : dy < dst.height := by omega
    have hrow := hs.copyPixels_ends hd hrec hsy' hsx hdy' hdx
      fun x hx hx' => hS x sy hx hx' (Nat.le_refl sy) (by omega)
    cases hq : Scanline.copyPixels src recode sy dy w sx dx dst with
    | error e =>
      rw [hq] at hrow
      simp only [Scanline.copyPixelRows, hq]
      exact hrow
    | ok q =>
      have h := rewritten_of_copyPixels hq
      simp only [Scanline.copyPixelRows, hq]
      exact ih (h.valid hd) (by omega) (by rw [h.frame_eq]; omega)
        (by rw [h.frame_eq]; exact hdx)
        fun x y hx hx' hy hy' => hS x y hx hx' (by omega) (by omega)

end Rows

theorem Valid.copyBlock_ends {b : Block}
    (hb : b.Inside src.width src.height dst.width dst.height) :
    Ends src dst.format b.origins (dst.copyBlock src b) := by
  obtain ⟨hw, hh, hsx, hsy, hsx', hsy', hdx, hdy, hdx', hdy'⟩ := hb
  unfold Pixmap.copyBlock
  dsimp only
  split
  · rename_i hsame
    rw [Bool.and_eq_true, Bool.not_eq_true'] at hsame
    obtain ⟨data, hdata, -⟩ := hs.copyByteRows hd (o := b.offset) hsame.2
      (Format.depth_eq_of_sameLayout hsame.1).symm
      (by omega : b.sy.toNat + b.h.toNat ≤ src.height)
      (by omega : b.sx.toNat + b.w.toNat ≤ src.width)
      (by omega : b.dy.toNat + b.h.toNat ≤ dst.height)
      (by omega : b.dx.toNat + b.w.toNat ≤ dst.width)
      (by simp only [Block.offset]; omega) (by simp only [Block.offset]; omega) rfl rfl rfl
    simp only [hdata]
    exact .ok _
  · refine hs.copyPixelRows_ends hd (fun v e he => ?_) (by omega) (by omega) (by omega) (by omega)
      fun x y hx hx' hy hy' => Block.mem_origins.mpr (by dsimp only; omega)
    unfold recode at he
    split at he
    · cases he
    · exact he

theorem Valid.copyNoted_ends {b : Block}
    (hb : b.Inside src.width src.height dst.width dst.height) :
    Ends src dst.format b.origins (dst.copyNoted src b).result := by
  simp only [Pixmap.copyNoted, Attempt.result_bind, Attempt.result_liftM]
  exact (hs.copyBlock_ends hd hb).bind fun q _ => .ok _

theorem Valid.blitClipped_ends (r : Window) (q : Point) :
    Ends src dst.format (r.taken q src.width src.height dst.width dst.height)
      (dst.blitClipped src r q).result := by
  unfold Pixmap.blitClipped
  split
  · exact .ok _
  · rename_i b hb
    rw [← Window.origins_eq_taken hb]
    exact hs.copyNoted_ends hd (Window.clipped?_eq_some hb).1

omit hs hd in
theorem onWindow_ends {g : Format} {S : Set Point} {r : Option Window}
    {copy : Pixmap → Window → Attempt (Box × Pixmap)}
    (h : ∀ w, r = some w → Ends src g S (copy dst w).result) :
    Ends src g S (dst.onWindow r copy).result := by
  cases r with
  | none => exact .ok _
  | some w => exact h w rfl

theorem Valid.blitSizedClipped_ends (x y : Int) (w h : Nat) (q : Point) :
    Ends src dst.format
      {s | s ∈ Box.ofSize x y w h ∧ s ∈ src.bounds ∧ s.ahead ⟨q.x - x, q.y - y⟩ ∈ dst.bounds}
      (dst.blitSizedClipped src x y w h q).result := by
  refine onWindow_ends fun r hr => (hs.blitClipped_ends hd r q).mono ?_
  rintro s ⟨hr', hsrc, hdst⟩
  have hbox := (Window.mem_of_ofSize? hr).mp hr'
  obtain ⟨-, -, rfl⟩ := Window.ofSize?_eq_some hr
  exact ⟨hbox, hsrc, hdst⟩

/-- A box of the source is copied to a box of its size in the destination. -/
theorem Valid.blitSized_ends {s t : Box} (hw : t.w = s.w) (hh : t.h = s.h)
    (hsrc : 0 ≤ s.x ∧ 0 ≤ s.y ∧ s.x + s.w ≤ src.width ∧ s.y + s.h ≤ src.height)
    (hdst : 0 ≤ t.x ∧ 0 ≤ t.y ∧ t.x + t.w ≤ dst.width ∧ t.y + t.h ≤ dst.height) :
    Ends src dst.format {c | c ∈ s} (dst.blitSized src s.x s.y s.w s.h ⟨t.x, t.y⟩).result := by
  refine onWindow_ends fun r hr => ?_
  obtain ⟨hw₀, hh₀, rfl⟩ := Window.ofSize?_eq_some hr
  have hin : (⟨s.x, s.y, s.x + s.w - 1, s.y + s.h - 1⟩ : Window).isInside src.width src.height =
      true := by
    simp only [Window.isInside, Window.fits_iff, Window.width, Window.height]
    omega
  have hinAt : (⟨s.x, s.y, s.x + s.w - 1, s.y + s.h - 1⟩ : Window).isInsideAt ⟨t.x, t.y⟩ dst.width
      dst.height = true := by
    simp only [Window.isInsideAt, Window.fits_iff, Window.width, Window.height]
    omega
  rw [Pixmap.blit, placed, hin, hinAt]
  refine (hs.copyNoted_ends hd
    (Window.place_inside hin hinAt (by dsimp only; omega) (by dsimp only; omega)).1).mono ?_
  intro c hc
  simp only [Block.mem_origins, Window.place, Window.width, Window.height] at hc
  rw [Set.mem_ofPred_eq, Box.mem_iff]
  simp only [Box.right, Box.bottom]
  omega

section Oriented
variable {b : Block}
  (hb : b.Inside src.orientedWidth src.orientedHeight dst.orientedWidth dst.orientedHeight)
include hb

theorem Valid.copyOrientedPixels_ends {j n i : Nat} (hj : (j : Int) < b.h)
    (hi : ((i + n : Nat) : Int) ≤ b.w) :
    Ends src dst.format (src.transformPoint '' b.origins)
      (Scanline.copyOrientedPixels src b j n i dst) := by
  induction n generalizing dst i with
  | zero => exact .ok dst
  | succ n ih =>
    have hp : (⟨b.dx + i, b.dy + j⟩ : Point) ∈ b.cells :=
      Block.mem_cells.mpr (by dsimp only; omega)
    have hback : (⟨b.dx + i, b.dy + j⟩ : Point).back b.offset = ⟨b.sx + i, b.sy + j⟩ := by
      simp only [Point.back, Block.offset, Point.mk.injEq]
      omega
    obtain ⟨hin, hsin⟩ := cells_shown hb hp
    rw [hback] at hsin
    have hsrc := (Frame.transformPoint_mem_iff hs.width_le hs.height_le).mpr hsin
    have hdst := (Frame.transformPoint_mem_iff hd.width_le hd.height_le).mpr hin
    have horigin : (⟨b.sx + i, b.sy + j⟩ : Point) ∈ b.origins :=
      Block.mem_origins.mpr (by dsimp only; omega)
    simp only [Scanline.copyOrientedPixels, hs.getRaw_eq hsrc]
    cases hv : src.format.convert (src.shown (src.transformPoint ⟨b.sx + i, b.sy + j⟩))
        dst.format with
    | error e =>
      simp only [bind, Except.bind, hv]
      exact .of_convert (Set.mem_image_of_mem _ horigin) (hs.get_eq hsrc) hv
    | ok v =>
      obtain ⟨q, hq, h⟩ := hd.putRaw hdst (v := v) (fun _ => v &&& dst.format.depth.mask) rfl
      have hrest := ih (h.valid hd) (by rw [h.frame_eq]; exact hb) (i := i + 1) (by omega)
      rw [h.frame_eq] at hrest
      simp only [bind, Except.bind, hv, hq]
      exact hrest

theorem Valid.copyOrientedRows_ends {n j : Nat} (hj : ((j + n : Nat) : Int) ≤ b.h) :
    Ends src dst.format (src.transformPoint '' b.origins)
      (Scanline.copyOrientedRows src b n j dst) := by
  induction n generalizing dst j with
  | zero => exact .ok dst
  | succ n ih =>
    have hw := hb.w_pos
    have hrow := hs.copyOrientedPixels_ends hd hb (j := j) (n := b.w.toNat) (i := 0) (by omega)
      (by omega)
    refine hrow.bind fun q hq => ?_
    have h := rewritten_of_copyOrientedPixels hq
    have hrest := ih (h.valid hd) (by rw [h.frame_eq]; exact hb) (j := j + 1) (by omega)
    rw [h.frame_eq] at hrest
    exact hrest

theorem Valid.copyOriented_ends :
    Ends src dst.format (src.transformPoint '' b.origins) (dst.copyOriented src b).result := by
  unfold Pixmap.copyOriented
  dsimp only
  split
  · rename_i ho
    have hsizes := hs.transformBox_sizes hd hb ho
    rw [Attempt.result_bind]
    have hends := hs.blitSized_ends hd hsizes.1 hsizes.2
      (Frame.transformBox_fits hs.width_le hs.height_le (hs.shows_source hb))
      (Frame.transformBox_fits hd.width_le hd.height_le (hd.shows_target hb))
    refine (hends.mono fun c hc => ?_).bind fun _ _ => .ok _
    exact (hs.mem_transformBox_source hb).mp hc
  · rw [Attempt.result_bind, Attempt.result_liftM]
    have hh := hb.h_pos
    exact (hs.copyOrientedRows_ends hd hb (by omega)).bind fun q _ => .ok _

end Oriented

theorem Valid.blitOrientedClipped_ends (r : Window) (q : Point) :
    Ends src dst.format (src.transformPoint '' r.taken q src.orientedWidth src.orientedHeight
      dst.orientedWidth dst.orientedHeight) (dst.blitOrientedClipped src r q).result := by
  unfold Pixmap.blitOrientedClipped
  split
  · exact .ok _
  · rename_i b hb
    rw [← Window.origins_eq_taken hb]
    exact hs.copyOriented_ends hd (Window.clipped?_eq_some hb).1

end Copies

/-- No access to the pixmap leaves its data, whatever the arguments. -/
structure Contained (p : Pixmap) : Prop where
  row : ∀ y < p.height, ∃ bytes, p.row y = .ok bytes ∧ bytes.size = p.rowBytes
  setRow : ∀ y < p.height, ∀ bytes, bytes.size ≤ p.rowBytes → ∃ q, p.setRow y bytes = .ok q
  get : ∀ c, ∃ v, p.get c = .ok v
  getOriented : ∀ c, ∃ v, p.getOriented c = .ok v
  put : ∀ c v, ∃ q, p.put c v = .ok q
  fill : ∀ v, ∃ q, p.fill v = .ok q
  draw : ∀ s v, ∃ answer, p.draw s v = .ok answer
  drawOriented : ∀ s v, ∃ answer, p.drawOriented s v = .ok answer
  blitClipped : ∀ src : Pixmap, src.Valid → ∀ r c,
    Ends src p.format {s | s ∈ r ∧ s ∈ src.bounds ∧ s.ahead (r.offset c) ∈ p.bounds}
      (p.blitClipped src r c).result
  blitSizedClipped : ∀ src : Pixmap, src.Valid → ∀ (x y : Int) (w h : Nat) (c : Point),
    Ends src p.format
      {s | s ∈ Box.ofSize x y w h ∧ s ∈ src.bounds ∧ s.ahead ⟨c.x - x, c.y - y⟩ ∈ p.bounds}
      (p.blitSizedClipped src x y w h c).result
  blitOrientedClipped : ∀ src : Pixmap, src.Valid → ∀ r c,
    Ends src p.format (src.transformPoint '' {s | s ∈ r ∧ s ∈ src.orientedBounds ∧
      s.ahead (r.offset c) ∈ p.orientedBounds}) (p.blitOrientedClipped src r c).result

section Accesses
variable {p : Pixmap} (hp : p.Valid)
include hp

theorem Valid.clipRect_covered : p.bounds.covers p.clipRect = true :=
  Box.covers_of_forall_mem fun _ hc => hp.mem_bounds_of_mem_clipRect hc

theorem Valid.row_le {y : Nat} (hy : y < p.height) :
    p.rowStart y + p.rowBytes ≤ p.data.size := by
  have hrow := hp.rowBytes_le
  have hend := hp.row_end_le hy
  omega

theorem Valid.exists_row {y : Nat} (hy : y < p.height) :
    ∃ bytes, p.row y = .ok bytes ∧ bytes.size = p.rowBytes := by
  obtain ⟨bytes, hbytes, hsize, -⟩ := exists_slice (hp.row_le hy)
  exact ⟨bytes, hbytes, hsize⟩

theorem Valid.exists_setRow {y : Nat} (hy : y < p.height) {bytes : ByteArray}
    (hlen : bytes.size ≤ p.rowBytes) : ∃ q, p.setRow y bytes = .ok q := by
  have hrow := hp.row_le hy
  rw [Pixmap.setRow, if_pos ⟨hrow, hlen⟩, overwrite, if_pos (by omega)]
  exact ⟨_, rfl⟩

theorem Valid.exists_get (c : Point) : ∃ v, p.get c = .ok v := by
  by_cases hc : c ∈ p.bounds
  · exact ⟨_, hp.get_eq hc⟩
  · exact ⟨0, by rw [Pixmap.get, if_neg hc]⟩

theorem Valid.contained : p.Contained where
  row _ hy := hp.exists_row hy
  setRow _ hy _ hlen := hp.exists_setRow hy hlen
  get c := hp.exists_get c
  getOriented c := hp.exists_get (p.transformPoint c)
  put c v := by
    obtain ⟨q, hq, -⟩ := hp.draw (.point c) v
    exact ⟨q, by rw [Pixmap.put, hq]; rfl⟩
  fill v := by
    obtain ⟨q, hq, -⟩ := hp.fill v
    exact ⟨q, hq⟩
  draw s v := by
    obtain ⟨q, hq, -⟩ := hp.draw s v
    exact ⟨_, hq⟩
  drawOriented s v := by
    obtain ⟨q, hq, -⟩ := hp.draw (s.orient p.toFrame) v
    exact ⟨_, hq⟩
  blitClipped _ hs r c := hs.blitClipped_ends hp r c
  blitSizedClipped _ hs x y w h c := hs.blitSizedClipped_ends hp x y w h c
  blitOrientedClipped _ hs r c := hs.blitOrientedClipped_ends hp r c

end Accesses

/-- A pixmap that comes about is valid, its clip lies in its bounds, no access leaves its data, and
a resize that fails changes nothing. -/
theorem reachable_contained {p : Pixmap} (h : p.Reachable) :
    p.Valid ∧ p.bounds.covers p.clipRect = true ∧ p.Contained ∧
      ∀ width height e, (p.resize width height).result = .error e →
        p.edited (.resize width height) = p := by
  refine ⟨h.valid, h.valid.clipRect_covered, h.valid.contained, fun width height e he => ?_⟩
  exact edited_resize_of_error he

theorem sample_reachable : sample.Reachable :=
  .edited (.setOrientation ⟨true, false, false⟩) (.edited (.setClip (some ⟨0, 0, 2, 2⟩))
    (.ofData (show ofData 3 2 2 Format.g2 ⟨#[0x1b, 0xff, 0xe4, 0, 0x55]⟩ = .ok _ from rfl)))

theorem reachable_contained_sample :
    sample.Reachable ∧ (∃ bytes, sample.row 1 = .ok bytes ∧ bytes.size = 1) ∧
      (∃ answer, (sample.blitClipped sample16 ⟨-9, -9, 9, 9⟩ ⟨-8, -8⟩).result = .ok answer) ∧
      sample.edited (.resize 2147483648 1) = sample := by
  obtain ⟨-, -, hin, hresize⟩ := reachable_contained sample_reachable
  exact ⟨sample_reachable, hin.row 1 (by decide),
    (hin.blitClipped sample16 sample16_valid _ _).exists_ok
      (Format.known_of_mem_standard (by decide)) (Format.known_of_mem_standard (by decide)),
    hresize 2147483648 1 _ rfl⟩

end Scanline.Pixmap

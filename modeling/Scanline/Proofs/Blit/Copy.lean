import Scanline.Proofs.Blit.Rows
import Scanline.Proofs.Box.Laws
import Scanline.Proofs.Format.Registry
import Scanline.Proofs.Results
/-! Copying a block. Whichever way a block is copied, by bytes, by pixels of one layout or with
conversion, each of its pixels in the destination gets the converted pixel of the source and
nothing else changes. -/

namespace Scanline

/-- The pixel of another format with the color of this one, for formats that have one. -/
def Format.converted (f g : Format) (p : Pixel) : Pixel :=
  match f.convert p g with
  | .ok v => v
  | .error _ => 0

theorem Format.Sound.convert_eq {f g : Format} (hf : f.Sound) (hg : g.Sound) (p : Pixel) :
    f.convert p g = .ok (f.converted g p) ∧ f.converted g p &&& g.depth.mask = f.converted g p := by
  obtain ⟨v, hv, hmask⟩ := hf.exists_convert hg p
  rw [converted, hv]
  exact ⟨rfl, hmask⟩

theorem Format.converted_of_sameLayout {f g : Format} (h : f.sameLayout g = true) (p : Pixel) :
    f.converted g p = p &&& g.depth.mask := by
  rw [converted, convert, if_pos h]

theorem Format.depth_eq_of_sameLayout {f g : Format} (h : f.sameLayout g = true) :
    f.depth = g.depth := by
  simp only [sameLayout, Bool.and_eq_true, beq_iff_eq] at h
  exact h.2

/-- What a copy from `src` answers about `dst`: each point of `W` shows the converted pixel at its
origin, no bit of another point or of no point has changed, and the box holds exactly `W`. -/
structure Transferred (src dst : Pixmap) (W : Set Point) (origin : Point → Point)
    (answer : Box × Pixmap) : Prop where
  frame_eq : answer.2.toFrame = dst.toFrame
  size_eq : answer.2.data.size = dst.data.size
  copied : ∀ c ∈ W, ∃ v w, src.get (origin c) = .ok v ∧
    src.format.convert v dst.format = .ok w ∧ answer.2.get c = .ok w
  untouched : ∀ c ∈ dst.bounds, c ∉ W → answer.2.get c = dst.get c
  kept : ∀ k, (∀ c ∈ W, ¬dst.Owns c k) → bitAt answer.2.data k = bitAt dst.data k
  mem_box : ∀ c, c ∈ answer.1 ↔ c ∈ W
  box_eq_empty : W = ∅ → answer.1 = Box.empty

theorem Transferred.congr {src dst : Pixmap} {W W' : Set Point} {origin origin' : Point → Point}
    {answer : Box × Pixmap} (h : Transferred src dst W origin answer) (hW : W = W')
    (horigin : ∀ c ∈ W, origin c = origin' c) : Transferred src dst W' origin' answer := by
  subst hW
  exact ⟨h.frame_eq, h.size_eq, fun c hc => horigin c hc ▸ h.copied c hc, h.untouched, h.kept,
    h.mem_box, h.box_eq_empty⟩

/-- Pixels that a copy has changed lie in the answered box. -/
theorem Transferred.mem_of_shown_ne {src dst : Pixmap} {W : Set Point} {origin : Point → Point}
    {answer : Box × Pixmap} (h : Transferred src dst W origin answer) (hd : dst.Valid) {c : Point}
    (hc : c ∈ dst.bounds) (hne : answer.2.shown c ≠ dst.shown c) : c ∈ answer.1 := by
  by_contra hbox
  have hget := h.untouched c hc fun hW => hbox ((h.mem_box c).mpr hW)
  rw [(hd.congr h.frame_eq h.size_eq).get_eq (by rw [h.frame_eq]; exact hc), hd.get_eq hc] at hget
  exact hne (Except.ok.inj hget)

theorem Transferred.canonical_box {src dst : Pixmap} {W : Set Point} {origin : Point → Point}
    {answer : Box × Pixmap} (h : Transferred src dst W origin answer) (hd : dst.Valid)
    (hW : ∀ c ∈ W, c ∈ dst.bounds) : answer.1.Canonical := by
  cases hempty : answer.1.isEmpty with
  | true =>
    rw [h.box_eq_empty (Set.eq_empty_of_forall_notMem fun c hc =>
      Box.not_mem_of_isEmpty hempty ((h.mem_box c).mpr hc))]
    exact Box.canonical_empty
  | false =>
    obtain ⟨hfirst, hlast⟩ := Box.corners_mem hempty
    obtain ⟨hx, hx', hy, hy'⟩ := hd.onScreen (hW _ ((h.mem_box _).mp hfirst))
    obtain ⟨-, gx, -, gy⟩ := hd.onScreen (hW _ ((h.mem_box _).mp hlast))
    simp only [Box.lastX, Box.lastY, Box.right, Box.bottom, coordMax] at *
    refine ⟨⟨?_, ?_, ?_, ?_, ?_, ?_⟩, fun htrue => absurd (hempty.symm.trans htrue) Bool.false_ne_true⟩
    all_goals
      simp only [coordMin, coordMax, sizeMax]
      omega

namespace Pixmap
variable {src dst : Pixmap} (hs : src.Valid) (hd : dst.Valid)

/-- The pixels that a copy brings to the points of the destination. -/
def incoming (src : Pixmap) (g : Format) (origin : Point → Point) (c : Point) : Pixel :=
  src.format.converted g (src.shown (origin c))

variable (hsf : src.format.Known) (hdf : dst.format.Known)
include hs hd hsf hdf

omit hs hd in
theorem exists_recode (v : Pixel) :
    ∃ u, recode src.toFrame dst.toFrame v = .ok u ∧
      src.format.converted dst.format v = u &&& dst.format.depth.mask := by
  unfold recode
  split
  · rename_i h
    exact ⟨v, rfl, Format.converted_of_sameLayout h v⟩
  · obtain ⟨hconv, hmask⟩ := hsf.sound.convert_eq hdf.sound v
    exact ⟨_, hconv, hmask.symm⟩

theorem Valid.copyBlock {b : Block} (hb : b.Inside src.width src.height dst.width dst.height) :
    ∃ q, dst.copyBlock src b = .ok q ∧
      Repainted dst q b.cells (src.incoming dst.format (·.back b.offset)) := by
  obtain ⟨hw, hh, hsx, hsy, hsx', hsy', hdx, hdy, hdx', hdy'⟩ := hb
  have hcells : ∀ c : Point, (((b.dy.toNat : Nat) : Int) ≤ c.y ∧ c.y < b.dy.toNat + b.h.toNat ∧
      ((b.dx.toNat : Nat) : Int) ≤ c.x ∧ c.x < b.dx.toNat + b.w.toNat) ↔ c ∈ b.cells := by
    intro c
    rw [Block.mem_cells]
    omega
  have hx : (b.dx.toNat : Int) = b.sx.toNat + b.offset.x := by
    simp only [Block.offset]
    omega
  have hy : (b.dy.toNat : Int) = b.sy.toNat + b.offset.y := by
    simp only [Block.offset]
    omega
  unfold Pixmap.copyBlock
  dsimp only
  split
  · rename_i hsame
    rw [Bool.and_eq_true, Bool.not_eq_true'] at hsame
    -- Bytes are copied only between equal layouts, where conversion changes no pixel.
    have hdepth := Format.depth_eq_of_sameLayout hsame.1
    obtain ⟨data, hdata, h⟩ := hs.copyByteRows hd hsame.2 hdepth.symm
      (by omega : b.sy.toNat + b.h.toNat ≤ src.height)
      (by omega : b.sx.toNat + b.w.toNat ≤ src.width)
      (by omega : b.dy.toNat + b.h.toNat ≤ dst.height)
      (by omega : b.dx.toNat + b.w.toNat ≤ dst.width) hx hy rfl rfl rfl
    refine ⟨⟨dst.toFrame, data⟩, by rw [hdata], h.congr (fun c _ => hcells c) ?_⟩
    intro c _ hc
    have hback : c.back b.offset ∈ src.bounds := by
      have hc' := Block.mem_cells.mp ((hcells c).mp hc)
      exact Frame.mem_bounds.mpr (by simp only [Point.back, Block.offset]; omega)
    rw [incoming, Format.converted_of_sameLayout hsame.1, ← hdepth, hs.shown_and_mask hback]
  · obtain ⟨q, hq, h⟩ := hs.copyPixelRows hd (exists_recode hsf hdf)
      (by omega : b.sy.toNat + b.h.toNat ≤ src.height)
      (by omega : b.sx.toNat + b.w.toNat ≤ src.width)
      (by omega : b.dy.toNat + b.h.toNat ≤ dst.height)
      (by omega : b.dx.toNat + b.w.toNat ≤ dst.width) hx hy
    exact ⟨q, hq, h.congr (fun c _ => hcells c) fun _ _ _ => rfl⟩

theorem Valid.copyNoted {b : Block} (hb : b.Inside src.width src.height dst.width dst.height) :
    ∃ q, (dst.copyNoted src b).result = .ok (b.target, q) ∧
      Repainted dst q b.cells (src.incoming dst.format (·.back b.offset)) := by
  obtain ⟨q, hq, h⟩ := hs.copyBlock hd hsf hdf hb
  refine ⟨q, ?_, h⟩
  simp only [Pixmap.copyNoted, Attempt.result_bind, Attempt.result_liftM, hq]
  rfl

theorem Valid.transferred {q : Pixmap} {W : Set Point} {origin : Point → Point} {box : Box}
    (h : Repainted dst q W (src.incoming dst.format origin)) (hW : ∀ c ∈ W, c ∈ dst.bounds)
    (horigin : ∀ c ∈ W, origin c ∈ src.bounds) (hbox : ∀ c, c ∈ box ↔ c ∈ W)
    (hempty : W = ∅ → box = Box.empty) : Transferred src dst W origin (box, q) := by
  refine ⟨h.frame_eq, h.size_eq, ?_, ?_, h.kept, hbox, hempty⟩
  · intro c hc
    refine ⟨_, _, hs.get_eq (horigin c hc), (hsf.sound.convert_eq hdf.sound _).1, ?_⟩
    rw [h.get_painted hd hc (hW c hc)]
    rfl
  · intro c _ hcW
    exact h.get_of_not_mem hd hcW

theorem Valid.transferred_empty (origin : Point → Point) :
    Transferred src dst ∅ origin (Box.empty, dst) := by
  refine hs.transferred hd hsf hdf (Repainted.refl dst _) ?_ ?_ ?_ fun _ => rfl
  · exact fun c hc => absurd hc (Set.notMem_empty c)
  · exact fun c hc => absurd hc (Set.notMem_empty c)
  · exact fun c => iff_of_false (Box.not_mem_empty c) (Set.notMem_empty c)

end Pixmap

end Scanline

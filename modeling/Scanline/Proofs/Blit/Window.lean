import Mathlib.Data.Set.Basic
import Scanline.Blit.Block
import Scanline.Proofs.Box.Membership
/-! Windows, where they land, and the blocks that checks and clipping make of them. A clipped
window is a block of exactly the points on which the window lands in both pictures. -/

namespace Scanline

/-- The point that lies at an offset before another one. -/
def Point.back (c o : Point) : Point := ⟨c.x - o.x, c.y - o.y⟩

/-- The point that lies at an offset after another one. -/
def Point.ahead (c o : Point) : Point := ⟨c.x + o.x, c.y + o.y⟩

theorem Point.back_ahead (c o : Point) : (c.ahead o).back o = c := by
  simp only [ahead, back, Int.add_sub_cancel]

namespace Block

/-- The block has pixels, and both its places lie in pictures of the given sizes. -/
structure Inside (b : Block) (srcWidth srcHeight dstWidth dstHeight : Nat) : Prop where
  w_pos : 0 < b.w
  h_pos : 0 < b.h
  sx_nonneg : 0 ≤ b.sx
  sy_nonneg : 0 ≤ b.sy
  sx_le : b.sx + b.w ≤ srcWidth
  sy_le : b.sy + b.h ≤ srcHeight
  dx_nonneg : 0 ≤ b.dx
  dy_nonneg : 0 ≤ b.dy
  dx_le : b.dx + b.w ≤ dstWidth
  dy_le : b.dy + b.h ≤ dstHeight

def offset (b : Block) : Point := ⟨b.dx - b.sx, b.dy - b.sy⟩

/-- The points of the block in its destination. -/
def cells (b : Block) : Set Point :=
  {c | b.dx ≤ c.x ∧ c.x < b.dx + b.w ∧ b.dy ≤ c.y ∧ c.y < b.dy + b.h}

/-- The points of the block in its source. -/
def origins (b : Block) : Set Point :=
  {c | b.sx ≤ c.x ∧ c.x < b.sx + b.w ∧ b.sy ≤ c.y ∧ c.y < b.sy + b.h}

variable {b : Block} {srcWidth srcHeight dstWidth dstHeight : Nat} {c : Point}

theorem mem_cells :
    c ∈ b.cells ↔ b.dx ≤ c.x ∧ c.x < b.dx + b.w ∧ b.dy ≤ c.y ∧ c.y < b.dy + b.h := Iff.rfl

theorem mem_origins :
    c ∈ b.origins ↔ b.sx ≤ c.x ∧ c.x < b.sx + b.w ∧ b.sy ≤ c.y ∧ c.y < b.sy + b.h := Iff.rfl

theorem ahead_mem_cells : c.ahead b.offset ∈ b.cells ↔ c ∈ b.origins := by
  rw [mem_cells, mem_origins]
  simp only [Point.ahead, offset]
  omega

theorem Inside.source_eq (h : b.Inside srcWidth srcHeight dstWidth dstHeight)
    (hw : (srcWidth : Int) ≤ coordMax) (hh : (srcHeight : Int) ≤ coordMax) :
    b.source = ⟨b.sx, b.sy, b.w.toNat, b.h.toNat⟩ := by
  obtain ⟨hw₀, hh₀, hx, hy, hx', hy', -⟩ := h
  rw [source, Box.ofEdges_of_bounds hx (by omega) (by omega) hy (by omega) (by omega),
    Box.mk.injEq]
  omega

theorem Inside.target_eq (h : b.Inside srcWidth srcHeight dstWidth dstHeight)
    (hw : (dstWidth : Int) ≤ coordMax) (hh : (dstHeight : Int) ≤ coordMax) :
    b.target = ⟨b.dx, b.dy, b.w.toNat, b.h.toNat⟩ := by
  obtain ⟨hw₀, hh₀, -, -, -, -, hx, hy, hx', hy'⟩ := h
  rw [target, Box.ofEdges_of_bounds hx (by omega) (by omega) hy (by omega) (by omega),
    Box.mk.injEq]
  omega

theorem Inside.mem_target (h : b.Inside srcWidth srcHeight dstWidth dstHeight)
    (hw : (dstWidth : Int) ≤ coordMax) (hh : (dstHeight : Int) ≤ coordMax) :
    c ∈ b.target ↔ c ∈ b.cells := by
  rw [h.target_eq hw hh, Box.mem_iff, mem_cells]
  obtain ⟨hw₀, hh₀, -⟩ := h
  simp only [Box.right, Box.bottom]
  omega

theorem Inside.mem_source (h : b.Inside srcWidth srcHeight dstWidth dstHeight)
    (hw : (srcWidth : Int) ≤ coordMax) (hh : (srcHeight : Int) ≤ coordMax) :
    c ∈ b.source ↔ c ∈ b.origins := by
  rw [h.source_eq hw hh, Box.mem_iff, mem_origins]
  obtain ⟨hw₀, hh₀, -⟩ := h
  simp only [Box.right, Box.bottom]
  omega

theorem Inside.cells_ne_empty (h : b.Inside srcWidth srcHeight dstWidth dstHeight) :
    b.cells ≠ ∅ := by
  obtain ⟨hw, hh, -⟩ := h
  have hmem : (⟨b.dx, b.dy⟩ : Point) ∈ b.cells := mem_cells.mpr (by dsimp only; omega)
  exact fun hnone => Set.notMem_empty _ (hnone ▸ hmem)

end Block

namespace Window

/-- How far the window is moved to place it at `q`. -/
def offset (r : Window) (q : Point) : Point := ⟨q.x - r.left, q.y - r.top⟩

/-- The points on which pixels of one picture land in another when the window is placed at `q`. -/
def landing (r : Window) (q : Point) (srcWidth srcHeight dstWidth dstHeight : Nat) : Set Point :=
  {c | c ∈ Box.ofSize 0 0 dstWidth dstHeight ∧
    c.back (r.offset q) ∈ Box.ofSize 0 0 srcWidth srcHeight ∧ c.back (r.offset q) ∈ r}

/-- The points of the window that one picture has, and for which another has a place when the window
is placed at `q`. -/
def taken (r : Window) (q : Point) (srcWidth srcHeight dstWidth dstHeight : Nat) : Set Point :=
  {s | s ∈ r ∧ s ∈ Box.ofSize 0 0 srcWidth srcHeight ∧
    s.ahead (r.offset q) ∈ Box.ofSize 0 0 dstWidth dstHeight}

variable {r : Window} {q c : Point} {srcWidth srcHeight dstWidth dstHeight : Nat} {b : Block}

theorem mem_landing : c ∈ r.landing q srcWidth srcHeight dstWidth dstHeight ↔
    ((0 ≤ c.x ∧ c.x < dstWidth) ∧
      (0 ≤ c.x - (q.x - r.left) ∧ c.x - (q.x - r.left) < srcWidth) ∧
      r.left ≤ c.x - (q.x - r.left) ∧ c.x - (q.x - r.left) ≤ r.right) ∧
    (0 ≤ c.y ∧ c.y < dstHeight) ∧
      (0 ≤ c.y - (q.y - r.top) ∧ c.y - (q.y - r.top) < srcHeight) ∧
      r.top ≤ c.y - (q.y - r.top) ∧ c.y - (q.y - r.top) ≤ r.bottom := by
  simp only [landing, Set.mem_ofPred_eq, Box.mem_ofSize, mem_iff, Point.back, offset, Int.zero_add]
  constructor
  · rintro ⟨hc, hs, hr⟩
    exact ⟨⟨⟨hc.1, hc.2.1⟩, ⟨hs.1, hs.2.1⟩, hr.1, hr.2.1⟩, hc.2.2, hs.2.2, hr.2.2⟩
  · rintro ⟨⟨hc, hs, hr⟩, hc', hs', hr'⟩
    exact ⟨⟨hc.1, hc.2, hc'⟩, ⟨hs.1, hs.2, hs'⟩, hr.1, hr.2, hr'⟩

/-- What clipping leaves on one axis, moved by `d`. -/
theorem mem_clipped_axis {left right d v : Int} {src dst : Nat} :
    max (max left 0) (-d) + d ≤ v ∧ v < max (max left 0) (-d) + d +
        (min (min right (src - 1)) (dst - 1 - d) - max (max left 0) (-d) + 1) ↔
      (0 ≤ v ∧ v < dst) ∧ (0 ≤ v - d ∧ v - d < src) ∧ left ≤ v - d ∧ v - d ≤ right := by
  omega

theorem not_mem_landing (h : r.clipped? q srcWidth srcHeight dstWidth dstHeight = none) :
    c ∉ r.landing q srcWidth srcHeight dstWidth dstHeight := by
  unfold clipped? at h
  dsimp only at h
  split at h
  · rename_i hnone
    rw [mem_landing]
    rintro ⟨hc, hs, hr⟩
    rcases hnone with hx | hy
    · omega
    · omega
  · exact absurd h nofun

theorem clipped?_eq_some (h : r.clipped? q srcWidth srcHeight dstWidth dstHeight = some b) :
    b.Inside srcWidth srcHeight dstWidth dstHeight ∧ b.offset = r.offset q ∧
      b.cells = r.landing q srcWidth srcHeight dstWidth dstHeight := by
  unfold clipped? at h
  dsimp only at h
  split at h
  · exact absurd h nofun
  rename_i hne
  rw [← Option.some.inj h]
  refine ⟨?_, ?_, ?_⟩
  · constructor
    all_goals dsimp only; omega
  · simp only [Block.offset, offset, Point.mk.injEq]
    omega
  · ext c
    rw [Block.mem_cells, mem_landing, ← and_assoc]
    exact and_congr mem_clipped_axis mem_clipped_axis

theorem ahead_mem_landing :
    c.ahead (r.offset q) ∈ r.landing q srcWidth srcHeight dstWidth dstHeight ↔
      c ∈ r.taken q srcWidth srcHeight dstWidth dstHeight := by
  simp only [landing, taken, Set.mem_ofPred_eq, Point.back_ahead]
  constructor
  · rintro ⟨hdst, hsrc, hr⟩
    exact ⟨hr, hsrc, hdst⟩
  · rintro ⟨hr, hsrc, hdst⟩
    exact ⟨hdst, hsrc, hr⟩

/-- A clipped window takes its pixels from the points that both pictures allow. -/
theorem origins_eq_taken (h : r.clipped? q srcWidth srcHeight dstWidth dstHeight = some b) :
    b.origins = r.taken q srcWidth srcHeight dstWidth dstHeight := by
  obtain ⟨-, hoff, hcells⟩ := clipped?_eq_some h
  ext c
  rw [← Block.ahead_mem_cells, hoff, hcells, ahead_mem_landing]

theorem fits_iff {x y w h : Int} {pictureWidth pictureHeight : Nat} :
    fits x y w h pictureWidth pictureHeight = true ↔
      0 ≤ x ∧ 0 ≤ y ∧ x + w ≤ pictureWidth ∧ y + h ≤ pictureHeight := by
  simp only [fits, Bool.and_eq_true, decide_eq_true_eq, and_assoc]

theorem place_inside (hsrc : r.isInside srcWidth srcHeight = true)
    (hdst : r.isInsideAt q dstWidth dstHeight = true) (hx : r.left ≤ r.right)
    (hy : r.top ≤ r.bottom) :
    (r.place q).Inside srcWidth srcHeight dstWidth dstHeight ∧
      (r.place q).offset = r.offset q ∧
      (r.place q).cells = r.landing q srcWidth srcHeight dstWidth dstHeight := by
  rw [isInside, fits_iff, width, height] at hsrc
  rw [isInsideAt, fits_iff, width, height] at hdst
  refine ⟨?_, rfl, ?_⟩
  · constructor
    all_goals simp only [place, width, height]; omega
  · ext c
    rw [Block.mem_cells, mem_landing]
    simp only [place, width, height]
    omega

theorem isInside_iff {pictureWidth pictureHeight : Nat} (hx : r.left ≤ r.right)
    (hy : r.top ≤ r.bottom) : r.isInside pictureWidth pictureHeight = true ↔
      ∀ s ∈ r, s ∈ Box.ofSize 0 0 pictureWidth pictureHeight := by
  rw [isInside, fits_iff, width, height]
  constructor
  · intro h s hs
    rw [mem_iff] at hs
    rw [Box.mem_ofSize]
    omega
  · intro h
    have hfirst := Box.mem_ofSize.mp (h ⟨r.left, r.top⟩ (mem_iff.mpr (by dsimp only; omega)))
    have hlast := Box.mem_ofSize.mp (h ⟨r.right, r.bottom⟩ (mem_iff.mpr (by dsimp only; omega)))
    dsimp only at hfirst hlast
    omega

theorem isInsideAt_iff {pictureWidth pictureHeight : Nat} (hx : r.left ≤ r.right)
    (hy : r.top ≤ r.bottom) : r.isInsideAt q pictureWidth pictureHeight = true ↔
      ∀ s ∈ r, s.ahead (r.offset q) ∈ Box.ofSize 0 0 pictureWidth pictureHeight := by
  rw [isInsideAt, fits_iff, width, height]
  simp only [Point.ahead, offset]
  constructor
  · intro h s hs
    rw [mem_iff] at hs
    rw [Box.mem_ofSize]
    dsimp only
    omega
  · intro h
    have hfirst := Box.mem_ofSize.mp (h ⟨r.left, r.top⟩ (mem_iff.mpr (by dsimp only; omega)))
    have hlast := Box.mem_ofSize.mp (h ⟨r.right, r.bottom⟩ (mem_iff.mpr (by dsimp only; omega)))
    dsimp only at hfirst hlast
    omega

theorem forall_mem_iff (hx : r.left ≤ r.right) (hy : r.top ≤ r.bottom) :
    (∀ s ∈ r, s ∈ Box.ofSize 0 0 srcWidth srcHeight ∧
      s.ahead (r.offset q) ∈ Box.ofSize 0 0 dstWidth dstHeight) ↔
      r.isInside srcWidth srcHeight = true ∧ r.isInsideAt q dstWidth dstHeight = true := by
  rw [isInside_iff hx hy, isInsideAt_iff hx hy]
  exact ⟨fun h => ⟨fun s hs => (h s hs).1, fun s hs => (h s hs).2⟩,
    fun h s hs => ⟨h.1 s hs, h.2 s hs⟩⟩

/-- A window that passes both checks lands whole. -/
theorem landing_eq_of_inside (hsrc : r.isInside srcWidth srcHeight = true)
    (hdst : r.isInsideAt q dstWidth dstHeight = true) :
    r.landing q srcWidth srcHeight dstWidth dstHeight = {c | c.back (r.offset q) ∈ r} := by
  rw [isInside, fits_iff, width, height] at hsrc
  rw [isInsideAt, fits_iff, width, height] at hdst
  ext c
  rw [mem_landing, Set.mem_ofPred_eq, mem_iff]
  simp only [Point.back, offset]
  omega

/-- Clipping leaves a window as it is just where both checks accept it. -/
theorem clipped?_eq_place_iff (hx : r.left ≤ r.right) (hy : r.top ≤ r.bottom) :
    r.clipped? q srcWidth srcHeight dstWidth dstHeight = some (r.place q) ↔
      r.isInside srcWidth srcHeight = true ∧ r.isInsideAt q dstWidth dstHeight = true := by
  constructor
  · intro h
    obtain ⟨hin, -, -⟩ := clipped?_eq_some h
    rw [isInside, isInsideAt, fits_iff, fits_iff]
    exact ⟨⟨hin.sx_nonneg, hin.sy_nonneg, hin.sx_le, hin.sy_le⟩,
      hin.dx_nonneg, hin.dy_nonneg, hin.dx_le, hin.dy_le⟩
  · rintro ⟨hsrc, hdst⟩
    rw [isInside, fits_iff, width, height] at hsrc
    rw [isInsideAt, fits_iff, width, height] at hdst
    unfold clipped?
    dsimp only
    rw [if_neg (by omega), Option.some.injEq, place, width, height, Block.mk.injEq]
    omega

theorem ofCorners_le (a b : Point) : (ofCorners a b).left ≤ (ofCorners a b).right ∧
    (ofCorners a b).top ≤ (ofCorners a b).bottom := by
  simp only [ofCorners]
  omega

theorem ofSize?_eq_ofCorners {w h : Nat} (hw : 0 < w) (hh : 0 < h) (x y : Int) :
    ofSize? x y w h = some (ofCorners ⟨x, y⟩ ⟨x + w - 1, y + h - 1⟩) := by
  rw [ofSize?, if_neg (by omega), Option.some.injEq, ofCorners, mk.injEq]
  dsimp only
  omega

theorem ofSize?_eq_some {x y : Int} {w h : Nat} (hr : ofSize? x y w h = some r) :
    0 < w ∧ 0 < h ∧ r = ⟨x, y, x + w - 1, y + h - 1⟩ := by
  unfold ofSize? at hr
  split at hr
  · exact absurd hr nofun
  · exact ⟨by omega, by omega, (Option.some.inj hr).symm⟩

theorem mem_of_ofSize? {x y : Int} {w h : Nat} (hr : ofSize? x y w h = some r) :
    c ∈ r ↔ c ∈ Box.ofSize x y w h := by
  obtain ⟨-, -, rfl⟩ := ofSize?_eq_some hr
  rw [mem_iff, Box.mem_ofSize]
  dsimp only
  omega

theorem ofSize?_eq_none {x y : Int} {w h : Nat} (hr : ofSize? x y w h = none) :
    w = 0 ∨ h = 0 := by
  unfold ofSize? at hr
  split at hr
  · assumption
  · exact absurd hr nofun

theorem landing_eq_empty (h : r.right < r.left ∨ r.bottom < r.top) :
    r.landing q srcWidth srcHeight dstWidth dstHeight = ∅ := by
  refine Set.eq_empty_of_forall_notMem fun c => ?_
  rw [mem_landing]
  omega

end Window

end Scanline

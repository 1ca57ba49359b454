import Scanline.Blit.Oriented
import Scanline.Proofs.Blit.Window
import Scanline.Proofs.Machine.Boxes
/-! Windows and blocks in machine arithmetic. A window of 32-bit corners, or of a 32-bit origin and
size, is placed, checked and clipped in 64 bits. -/

namespace Scanline

/-- The edges of a window between 32-bit corners, or of one with a 32-bit origin and size. -/
structure Window.InRange (r : Window) : Prop where
  left_bounds : -0x80000000 ≤ r.left ∧ r.left ≤ 0x7fffffff
  top_bounds : -0x80000000 ≤ r.top ∧ r.top ≤ 0x7fffffff
  right_bounds : -0x80000000 ≤ r.right ∧ r.right ≤ 0x17fffffff
  bottom_bounds : -0x80000000 ≤ r.bottom ∧ r.bottom ≤ 0x17fffffff

namespace Machine

def windowOfSize? (x y : Int) (w h : Nat) : Except Failure (Option Window) := do
  if w = 0 ∨ h = 0 then return none
  return some ⟨x, y, ← i64 ((← i64 (x + w)) - 1), ← i64 ((← i64 (y + h)) - 1)⟩

def windowWidth (r : Window) : Except Failure Int := do i64 ((← i64 (r.right - r.left)) + 1)

def windowHeight (r : Window) : Except Failure Int := do i64 ((← i64 (r.bottom - r.top)) + 1)

/-- Whether a rectangle of pixels lies in a picture of the given size. -/
def fits (x y w h : Int) (width height : Nat) : Except Failure Bool := do
  return 0 ≤ x && 0 ≤ y && (← i64 (x + w)) ≤ width && (← i64 (y + h)) ≤ height

/-- The window as a block, if it lies in the source and its place at `q` in the destination. The
last row and column of the source are compared, not the sizes. -/
def placed (src dst : Frame) (r : Window) (q : Point) : Except Failure Block :=
  if !(0 ≤ r.left && 0 ≤ r.top && r.right < src.width && r.bottom < src.height) then
    .error (.misuse (.blitSource r.left r.top r.right r.bottom src.width src.height))
  else do
    let w ← windowWidth r
    let h ← windowHeight r
    if !(← fits q.x q.y w h dst.width dst.height) then
      .error (.misuse (.blitDestination w h q.x q.y dst.width dst.height))
    else return ⟨w, h, r.left, r.top, q.x, q.y⟩

/-- The same between the sizes that the orientations show. -/
def placedOriented (src dst : Frame) (r : Window) (q : Point) : Except Failure Block := do
  let w ← windowWidth r
  let h ← windowHeight r
  if !(← fits r.left r.top w h src.orientedWidth src.orientedHeight) then
    .error (.misuse (.orientedBlitSource w h r.left r.top src.orientedWidth src.orientedHeight))
  else if !(← fits q.x q.y w h dst.orientedWidth dst.orientedHeight) then
    .error (.misuse (.orientedBlitDestination w h q.x q.y dst.orientedWidth dst.orientedHeight))
  else return ⟨w, h, r.left, r.top, q.x, q.y⟩

def clipped? (r : Window) (q : Point) (srcWidth srcHeight dstWidth dstHeight : Nat) :
    Except Failure (Option Block) := do
  let dx ← i64 (q.x - r.left)
  let dy ← i64 (q.y - r.top)
  let left := max (max r.left 0) (← i64 (-dx))
  let top := max (max r.top 0) (← i64 (-dy))
  let right := min (min r.right (← i64 (srcWidth - 1))) (← i64 ((← i64 (dstWidth - 1)) - dx))
  let bottom := min (min r.bottom (← i64 (srcHeight - 1))) (← i64 ((← i64 (dstHeight - 1)) - dy))
  if left > right ∨ top > bottom then return none
  let w ← i64 ((← i64 (right - left)) + 1)
  let h ← i64 ((← i64 (bottom - top)) + 1)
  return some ⟨w, h, left, top, ← i64 (left + dx), ← i64 (top + dy)⟩

def blockBox (x y w h : Int) : Except Failure Box := do
  ofEdges x y (← i64 (x + w)) (← i64 (y + h))

variable {r : Window} {a b q : Point} {x y w h : Int} {src dst : Frame}

theorem inRange_ofCorners (ha : a.InRange) (hb : b.InRange) : (Window.ofCorners a b).InRange := by
  obtain ⟨hax, hay⟩ := point_fields ha
  obtain ⟨hbx, hby⟩ := point_fields hb
  constructor
  all_goals
    simp only [Window.ofCorners]
    omega

theorem inRange_ofSize? {w h : Nat} (hb : (⟨x, y, w, h⟩ : Box).InRange)
    (hr : Window.ofSize? x y w h = some r) : r.InRange := by
  obtain ⟨hw, hh, rfl⟩ := Window.ofSize?_eq_some hr
  obtain ⟨hx, hy, hw', hh'⟩ := box_fields hb
  dsimp only at hx hy hw' hh'
  constructor
  all_goals
    dsimp only
    omega

theorem windowOfSize?_eq {w h : Nat} (hb : (⟨x, y, w, h⟩ : Box).InRange) :
    windowOfSize? x y w h = .ok (Window.ofSize? x y w h) := by
  obtain ⟨hx, hy, hw, hh⟩ := box_fields hb
  dsimp only at hx hy hw hh
  unfold windowOfSize? Window.ofSize?
  split
  · rfl
  · rw [i64_eq (by omega) (by omega), ok_bind, i64_eq (by omega) (by omega), ok_bind,
      i64_eq (by omega) (by omega), ok_bind, i64_eq (by omega) (by omega)]
    rfl

theorem windowWidth_eq (hr : r.InRange) : windowWidth r = .ok r.width := by
  obtain ⟨hl, -, hr, -⟩ := hr
  rw [windowWidth, i64_eq (by omega) (by omega), ok_bind, i64_eq (by omega) (by omega),
    Window.width]

theorem windowHeight_eq (hr : r.InRange) : windowHeight r = .ok r.height := by
  obtain ⟨-, ht, -, hb⟩ := hr
  rw [windowHeight, i64_eq (by omega) (by omega), ok_bind, i64_eq (by omega) (by omega),
    Window.height]

theorem size_bounds (hr : r.InRange) : (-0x100000000 ≤ r.width ∧ r.width ≤ 0x200000000) ∧
    -0x100000000 ≤ r.height ∧ r.height ≤ 0x200000000 := by
  obtain ⟨hl, ht, hr, hb⟩ := hr
  unfold Window.width Window.height
  omega

theorem fits_eq (hx : -0x80000000 ≤ x ∧ x ≤ 0x7fffffff) (hy : -0x80000000 ≤ y ∧ y ≤ 0x7fffffff)
    (hw : -0x100000000 ≤ w ∧ w ≤ 0x200000000) (hh : -0x100000000 ≤ h ∧ h ≤ 0x200000000)
    (width height : Nat) : fits x y w h width height = .ok (Window.fits x y w h width height) := by
  rw [fits, i64_eq (by omega) (by omega), ok_bind, i64_eq (by omega) (by omega), ok_bind,
    Window.fits]
  rfl

theorem placed_eq (hr : r.InRange) (hq : q.InRange) :
    placed src dst r q = (Pixmap.placed src dst r q).mapError .misuse := by
  obtain ⟨hqx, hqy⟩ := point_fields hq
  obtain ⟨hw, hh⟩ := size_bounds hr
  have hinside : (decide (0 ≤ r.left) && decide (0 ≤ r.top) && decide (r.right < src.width) &&
      decide (r.bottom < src.height)) = r.isInside src.width src.height := by
    rw [Bool.eq_iff_iff, Window.isInside, Window.fits_iff, Window.width, Window.height]
    simp only [Bool.and_eq_true, decide_eq_true_eq]
    omega
  unfold placed Pixmap.placed
  rw [hinside, windowWidth_eq hr, ok_bind, windowHeight_eq hr, ok_bind, fits_eq hqx hqy hw hh]
  split
  · rfl
  dsimp only [ok_bind]
  rw [← Window.isInsideAt]
  split
  · rfl
  · rfl

theorem placedOriented_eq (hr : r.InRange) (hq : q.InRange) :
    placedOriented src dst r q = (Pixmap.placedOriented src dst r q).mapError .misuse := by
  obtain ⟨hqx, hqy⟩ := point_fields hq
  obtain ⟨hw, hh⟩ := size_bounds hr
  unfold placedOriented Pixmap.placedOriented
  rw [windowWidth_eq hr, ok_bind, windowHeight_eq hr, ok_bind,
    fits_eq hr.left_bounds hr.top_bounds hw hh, ok_bind, ← Window.isInside,
    fits_eq hqx hqy hw hh]
  split
  · rfl
  dsimp only [ok_bind]
  rw [← Window.isInsideAt]
  split
  · rfl
  · rfl

theorem clipped?_eq (hr : r.InRange) (hq : q.InRange) {srcWidth srcHeight dstWidth dstHeight : Nat}
    (hsw : (srcWidth : Int) ≤ coordMax) (hsh : (srcHeight : Int) ≤ coordMax)
    (hdw : (dstWidth : Int) ≤ coordMax) (hdh : (dstHeight : Int) ≤ coordMax) :
    clipped? r q srcWidth srcHeight dstWidth dstHeight =
      .ok (r.clipped? q srcWidth srcHeight dstWidth dstHeight) := by
  obtain ⟨hqx, hqy⟩ := point_fields hq
  obtain ⟨hl, ht, hr, hb⟩ := hr
  unfold coordMax at hsw hsh hdw hdh
  unfold clipped? Window.clipped?
  rw [i64_eq (by omega) (by omega), ok_bind, i64_eq (by omega) (by omega), ok_bind,
    i64_eq (by omega) (by omega), ok_bind, i64_eq (by omega) (by omega), ok_bind,
    i64_eq (by omega) (by omega), ok_bind, i64_eq (by omega) (by omega), ok_bind,
    i64_eq (by omega) (by omega), ok_bind, i64_eq (by omega) (by omega), ok_bind,
    i64_eq (by omega) (by omega), ok_bind, i64_eq (by omega) (by omega), ok_bind]
  dsimp only
  split
  · rfl
  · rw [i64_eq (by omega) (by omega), ok_bind, i64_eq (by omega) (by omega), ok_bind,
      i64_eq (by omega) (by omega), ok_bind, i64_eq (by omega) (by omega), ok_bind,
      i64_eq (by omega) (by omega), ok_bind, i64_eq (by omega) (by omega)]
    rfl

/-- Both checks of a window leave a block that lies in both pictures. -/
theorem checked_inside {b : Block} {early late : Misuse}
    {srcWidth srcHeight dstWidth dstHeight : Nat} (hx : r.left ≤ r.right) (hy : r.top ≤ r.bottom)
    (h : (if !r.isInside srcWidth srcHeight then .error early
      else if !r.isInsideAt q dstWidth dstHeight then .error late else .ok (r.place q) :
        Except Misuse Block) = .ok b) : b.Inside srcWidth srcHeight dstWidth dstHeight := by
  split at h
  · cases h
  split at h
  · cases h
  · rename_i hsrc hdst
    rw [Bool.not_eq_true, Bool.not_eq_false'] at hsrc hdst
    rw [← Except.ok.inj h]
    exact (Window.place_inside hsrc hdst hx hy).1

theorem blockBox_eq (hx : 0 ≤ x ∧ x + w ≤ 0x7fffffff) (hy : 0 ≤ y ∧ y + h ≤ 0x7fffffff)
    (hw : 0 ≤ w) (hh : 0 ≤ h) : blockBox x y w h = .ok (Box.ofEdges x y (x + w) (y + h)) := by
  rw [blockBox, i64_eq (by omega) (by omega), ok_bind, i64_eq (by omega) (by omega), ok_bind]
  exact ofEdges_eq (by omega) (by omega)

end Machine

end Scanline

import Scanline.Proofs.Pixmap.InPlace
/-! Copies into a pixmap where it is. A checked copy looks at both places of its block before the
first write. A copy that comes to a pixel without a color stops there and leaves what it has
written. -/

namespace Scanline.InPlace

variable (src : Pixmap)

/-- Copies the bytes of `n` rows, `len` in each, from `s` in the source to `d` in the pixmap. -/
def copyByteRows (len : Nat) : (n s d : Nat) → InPlace Unit
  | 0, _, _ => return
  | n + 1, s, d => do
    let p ← get
    if s + len ≤ src.data.size ∧ d + len ≤ p.data.size then
      set { p with data := src.data.copySlice s p.data d len }
      copyByteRows len n (s + src.stride) (d + p.stride)
    else throw (.fault .outside)

def copyPixels (recode : Pixel → Except Failure Pixel) (sy dy : Nat) :
    (n sx dx : Nat) → InPlace Unit
  | 0, _, _ => return
  | n + 1, sx, dx => do
    let v ← recode (← src.read sx sy)
    change (·.write dx dy v)
    copyPixels recode sy dy n (sx + 1) (dx + 1)

def copyPixelRows (recode : Pixel → Except Failure Pixel) (w sx dx : Nat) :
    (n sy dy : Nat) → InPlace Unit
  | 0, _, _ => return
  | n + 1, sy, dy => do
    copyPixels src recode sy dy w sx dx
    copyPixelRows recode w sx dx n (sy + 1) (dy + 1)

def copyBlock (b : Block) : InPlace Unit := do
  let p ← get
  let depth := src.format.depth
  if src.format.sameLayout p.format && !depth.isPacked then
    copyByteRows src (b.w.toNat * depth.bytes) b.h.toNat
      (b.sy.toNat * src.stride + b.sx.toNat * depth.bytes)
      (b.dy.toNat * p.stride + b.dx.toNat * depth.bytes)
  else
    copyPixelRows src (Pixmap.recode src.toFrame p.toFrame) b.w.toNat b.sx.toNat b.dx.toNat
      b.h.toNat b.sy.toNat b.dy.toNat

/-- Copies a block and answers the box that was written. -/
def copyAnswered (b : Block) : InPlace Box := do
  copyBlock src b
  return b.target

def blit (r : Window) (q : Point) : InPlace Box := do
  let p ← get
  match Pixmap.placed src.toFrame p.toFrame r q with
  | .error m => throw (.misuse m)
  | .ok b => copyAnswered src b

def blitClipped (r : Window) (q : Point) : InPlace Box := do
  let p ← get
  match r.clipped? q src.width src.height p.width p.height with
  | none => return Box.empty
  | some b => copyAnswered src b

def onWindow (r : Option Window) (copy : Window → InPlace Box) : InPlace Box :=
  match r with
  | none => return Box.empty
  | some r => copy r

def blitSized (x y : Int) (w h : Nat) (q : Point) : InPlace Box :=
  onWindow (Window.ofSize? x y w h) fun r => blit src r q

def blitSizedClipped (x y : Int) (w h : Nat) (q : Point) : InPlace Box :=
  onWindow (Window.ofSize? x y w h) fun r => blitClipped src r q

def copyOrientedPixels (b : Block) (j : Nat) : (n i : Nat) → InPlace Unit
  | 0, _ => return
  | n + 1, i => do
    let p ← get
    let s := src.transformPoint ⟨b.sx + i, b.sy + j⟩
    let v ← src.getRaw s.x.toNat s.y.toNat
    let v ← src.format.convert v p.format
    let d := p.transformPoint ⟨b.dx + i, b.dy + j⟩
    putRaw d.x.toNat d.y.toNat v
    copyOrientedPixels b j n (i + 1)

def copyOrientedRows (b : Block) : (n j : Nat) → InPlace Unit
  | 0, _ => return
  | n + 1, j => do
    copyOrientedPixels src b j b.w.toNat 0
    copyOrientedRows b n (j + 1)

def copyOriented (b : Block) : InPlace Box := do
  let p ← get
  let source := src.transformBox b.source
  let target := p.transformBox b.target
  if src.orientation = p.orientation then
    let _ ← blitSized src source.x source.y source.w source.h ⟨target.x, target.y⟩
    return target
  else
    copyOrientedRows src b b.h.toNat 0
    return target

def blitOriented (r : Window) (q : Point) : InPlace Box := do
  let p ← get
  match Pixmap.placedOriented src.toFrame p.toFrame r q with
  | .error m => throw (.misuse m)
  | .ok b => copyOriented src b

def blitOrientedClipped (r : Window) (q : Point) : InPlace Box := do
  let p ← get
  match r.clipped? q src.orientedWidth src.orientedHeight p.orientedWidth p.orientedHeight with
  | none => return Box.empty
  | some b => copyOriented src b

theorem makes_copyByteRows (len n s d : Nat) (frame : Frame) (data : ByteArray) :
    Makes (copyByteRows src len n s d) ⟨frame, data⟩
      ((Scanline.copyByteRows src.data src.stride frame.stride len n s d data).map
        (Pixmap.mk frame)) := by
  induction n generalizing s d data with
  | zero => exact .answered () _
  | succ n ih =>
    rw [Makes, copyByteRows, on_get_bind, Scanline.copyByteRows]
    split
    · rename_i hfit
      exact (ih (s + src.stride) (d + frame.stride) _).after
        ⟨rfl, size_copySlice hfit.1 hfit.2⟩
    · exact .failed _ (.refl _)

theorem makes_copyPixels (recode : Pixel → Except Failure Pixel) (sy dy n sx dx : Nat)
    (p : Pixmap) : Makes (copyPixels src recode sy dy n sx dx) p
      (Scanline.copyPixels src recode sy dy n sx dx p) := by
  induction n generalizing sx dx p with
  | zero => exact .answered () p
  | succ n ih =>
    rw [Makes, copyPixels, Scanline.copyPixels]
    cases src.read sx sy with
    | error e => exact .failed e (.refl p)
    | ok v =>
      rw [on_ok_bind]
      dsimp only
      cases recode v with
      | error e => exact .failed e (.refl p)
      | ok u =>
        have hwrite := makes_change (·.write dx dy u) p
        rw [on_ok_bind]
        dsimp only at hwrite ⊢
        cases hq : p.write dx dy u with
        | error e =>
          rw [hq] at hwrite
          exact hwrite.bind_error
        | ok q =>
          rw [hq] at hwrite
          exact hwrite.bind_ok (Pixmap.rewritten_of_write hq) (ih (sx + 1) (dx + 1) q)

theorem makes_copyPixelRows (recode : Pixel → Except Failure Pixel) (w sx dx n sy dy : Nat)
    (p : Pixmap) : Makes (copyPixelRows src recode w sx dx n sy dy) p
      (Scanline.copyPixelRows src recode w sx dx n sy dy p) := by
  induction n generalizing sy dy p with
  | zero => exact .answered () p
  | succ n ih =>
    have hrow := makes_copyPixels src recode sy dy w sx dx p
    rw [Makes, copyPixelRows, Scanline.copyPixelRows]
    cases hq : Scanline.copyPixels src recode sy dy w sx dx p with
    | error e =>
      rw [hq] at hrow
      exact hrow.bind_error
    | ok q =>
      rw [hq] at hrow
      exact hrow.bind_ok (Pixmap.rewritten_of_copyPixels hq) (ih (sy + 1) (dy + 1) q)

theorem makes_copyBlock (b : Block) (p : Pixmap) :
    Makes (copyBlock src b) p (p.copyBlock src b) := by
  rcases p with ⟨frame, data⟩
  rw [Makes, copyBlock, on_get_bind, Pixmap.copyBlock]
  dsimp only
  split
  · have hrows := makes_copyByteRows src (b.w.toNat * src.format.depth.bytes) b.h.toNat
      (b.sy.toNat * src.stride + b.sx.toNat * src.format.depth.bytes)
      (b.dy.toNat * frame.stride + b.dx.toNat * src.format.depth.bytes) frame data
    rw [Makes] at hrows
    generalize Scanline.copyByteRows _ _ _ _ _ _ _ data = r at hrows ⊢
    cases r with
    | error e => exact hrows
    | ok data' => exact hrows
  · exact makes_copyPixelRows src _ _ _ _ _ _ _ _

theorem does_copyAnswered (b : Block) (p : Pixmap) :
    Does p ((copyAnswered src b).on p) (p.copyNoted src b).result := by
  have h := (makes_copyBlock src b p).bind_pure fun _ => b.target
  simp only [Pixmap.copyNoted, Attempt.result_bind, Attempt.result_liftM]
  generalize p.copyBlock src b = r at h ⊢
  cases r with
  | error e => exact h
  | ok q => exact h

theorem does_blit (r : Window) (q : Point) (p : Pixmap) :
    Does p ((blit src r q).on p) (p.blit src r q).result := by
  rw [blit, on_get_bind, Pixmap.blit]
  cases Pixmap.placed src.toFrame p.toFrame r q with
  | error m => exact .failed _ (.refl p)
  | ok b => exact does_copyAnswered src b p

theorem does_blitClipped (r : Window) (q : Point) (p : Pixmap) :
    Does p ((blitClipped src r q).on p) (p.blitClipped src r q).result := by
  rw [blitClipped, on_get_bind, Pixmap.blitClipped]
  cases r.clipped? q src.width src.height p.width p.height with
  | none => exact .answered _ p
  | some b => exact does_copyAnswered src b p

theorem does_onWindow {r : Option Window} {copy : Window → InPlace Box}
    {copied : Pixmap → Window → Attempt (Box × Pixmap)} {p : Pixmap}
    (h : ∀ r, Does p ((copy r).on p) (copied p r).result) :
    Does p ((onWindow r copy).on p) (p.onWindow r copied).result := by
  cases r with
  | none => exact .answered _ p
  | some r => exact h r

theorem does_blitSized (x y : Int) (w h : Nat) (q : Point) (p : Pixmap) :
    Does p ((blitSized src x y w h q).on p) (p.blitSized src x y w h q).result :=
  does_onWindow fun r => does_blit src r q p

theorem does_blitSizedClipped (x y : Int) (w h : Nat) (q : Point) (p : Pixmap) :
    Does p ((blitSizedClipped src x y w h q).on p) (p.blitSizedClipped src x y w h q).result :=
  does_onWindow fun r => does_blitClipped src r q p

theorem makes_copyOrientedPixels (b : Block) (j n i : Nat) (p : Pixmap) :
    Makes (copyOrientedPixels src b j n i) p (Scanline.copyOrientedPixels src b j n i p) := by
  induction n generalizing i p with
  | zero => exact .answered () p
  | succ n ih =>
    rw [Makes, copyOrientedPixels, on_get_bind, Scanline.copyOrientedPixels]
    dsimp only
    cases src.getRaw _ _ with
    | error e => exact .failed e (.refl p)
    | ok v =>
      rw [on_ok_bind, ok_bind]
      cases src.format.convert v p.format with
      | error e => exact .failed e (.refl p)
      | ok u =>
        rw [on_ok_bind, ok_bind]
        exact (makes_putRaw p _ _ u).bind (fun q => Pixmap.rewritten_of_putRaw)
          fun q => ih (i + 1) q

theorem makes_copyOrientedRows (b : Block) (n j : Nat) (p : Pixmap) :
    Makes (copyOrientedRows src b n j) p (Scanline.copyOrientedRows src b n j p) := by
  induction n generalizing j p with
  | zero => exact .answered () p
  | succ n ih =>
    exact (makes_copyOrientedPixels src b j b.w.toNat 0 p).bind
      (fun q => Pixmap.rewritten_of_copyOrientedPixels) fun q => ih (j + 1) q

theorem does_copyOriented (b : Block) (p : Pixmap) :
    Does p ((copyOriented src b).on p) (p.copyOriented src b).result := by
  rw [copyOriented, on_get_bind, Pixmap.copyOriented]
  dsimp only
  split
  · have h := (does_blitSized src (src.transformBox b.source).x (src.transformBox b.source).y
      (src.transformBox b.source).w (src.transformBox b.source).h
      ⟨(p.transformBox b.target).x, (p.transformBox b.target).y⟩ p).bind_pure
      fun _ => p.transformBox b.target
    rw [Attempt.result_bind]
    generalize (p.blitSized src _ _ _ _ _).result = r at h ⊢
    cases r with
    | error e => exact h
    | ok copied => exact h
  · have h := (makes_copyOrientedRows src b b.h.toNat 0 p).bind_pure
      fun _ => p.transformBox b.target
    rw [Attempt.result_bind, Attempt.result_liftM]
    generalize Scanline.copyOrientedRows src b b.h.toNat 0 p = r at h ⊢
    cases r with
    | error e => exact h
    | ok q => exact h

theorem does_blitOriented (r : Window) (q : Point) (p : Pixmap) :
    Does p ((blitOriented src r q).on p) (p.blitOriented src r q).result := by
  rw [blitOriented, on_get_bind, Pixmap.blitOriented]
  cases Pixmap.placedOriented src.toFrame p.toFrame r q with
  | error m => exact .failed _ (.refl p)
  | ok b => exact does_copyOriented src b p

theorem does_blitOrientedClipped (r : Window) (q : Point) (p : Pixmap) :
    Does p ((blitOrientedClipped src r q).on p) (p.blitOrientedClipped src r q).result := by
  rw [blitOrientedClipped, on_get_bind, Pixmap.blitOrientedClipped]
  cases r.clipped? q src.orientedWidth src.orientedHeight p.orientedWidth p.orientedHeight with
  | none => exact .answered _ p
  | some b => exact does_copyOriented src b p

end Scanline.InPlace

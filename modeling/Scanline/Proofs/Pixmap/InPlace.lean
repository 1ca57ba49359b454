import Scanline.Draw
import Scanline.Proofs.Pixmap.Rewritten
/-! Requests on a pixmap where it is. Each check and each write is a step of its own, in the order
in which they are made, and what was written before a failure stays written. Every request answers
what the function of its name answers and leaves the pixmap of that answer; a request that fails
leaves the frame and the number of bytes as they were. -/

namespace Scanline

/-- A request that changes the pixmap of its owner, and may fail on the way. -/
abbrev InPlace (α : Type) := ExceptT Failure (StateM Pixmap) α

namespace InPlace
variable {α β : Type}

/-- The answer to a request, and the pixmap that its owner has afterwards. -/
def on (m : InPlace α) (p : Pixmap) : Except Failure α × Pixmap := (ExceptT.run m).run p

/-- The pixmap that its owner has after a request, which may have failed. -/
def left (m : InPlace α) (p : Pixmap) : Pixmap := (m.on p).2

/-- One change. It is checked as a whole before a byte is written. -/
def change (f : Pixmap → Except Failure Pixmap) : InPlace Unit := do
  let p ← get
  set (← f p)

def resize (width height : Nat) : InPlace Unit := do
  let p ← get
  let stride ← ofConfig (Frame.strideFor p.format width height p.align)
  let size ← ofConfig (Frame.bufferSize? width height stride)
  let data ← zeros size
  modify fun p => { p with data }
  modify fun p => { p with width }
  modify fun p => { p with height }
  modify fun p => { p with stride }

def putRaw (x y : Nat) (v : Pixel) : InPlace Unit := do
  let p ← get
  p.checkInside x y
  change (·.write x y v)

/-- Writes `n` neighbouring pixels of row `y`, from column `x` on. -/
def writeRun (y : Nat) (v : Pixel) : (n x : Nat) → InPlace Unit
  | 0, _ => return
  | n + 1, x => do
    change (·.write x y v)
    writeRun y v n (x + 1)

def writeRuns (v : Pixel) : List Run → InPlace Unit
  | [] => return
  | r :: rest => do
    writeRun r.y.toNat v (r.last + 1 - r.first).toNat r.first.toNat
    writeRuns v rest

def draw (s : Shape) (v : Pixel) : InPlace Box := do
  let p ← get
  writeRuns v (s.runs p.clipRect)
  return s.box.intersect p.clipRect

def drawOriented (s : Shape) (v : Pixel) : InPlace Box := do
  let p ← get
  draw (s.orient p.toFrame) v

/-- Copies packed row bytes to the start of each of `n` rows from `y` on. -/
def copyRows (bytes : ByteArray) : (n y : Nat) → InPlace Unit
  | 0, _ => return
  | n + 1, y => do
    change fun p => p.setBytes (p.rowStart y) bytes
    copyRows bytes n (y + 1)

def fill (v : Pixel) : InPlace Unit := do
  let p ← get
  if p.width = 0 ∨ p.height = 0 then return
  else
    writeRun 0 v p.width 0
    let p ← get
    let bytes ← slice p.data 0 p.rowBytes
    copyRows bytes (p.height - 1) 1

section Steps
variable {p : Pixmap}

@[simp] theorem on_get : (get : InPlace Pixmap).on p = (.ok p, p) := rfl

@[simp] theorem on_liftM (r : Except Failure α) : (liftM r : InPlace α).on p = (r, p) := rfl

theorem on_bind (m : InPlace α) (f : α → InPlace β) : (m >>= f).on p =
    match m.on p with
    | (.ok a, q) => (f a).on q
    | (.error e, q) => (.error e, q) := by
  simp only [on, ExceptT.run_bind, StateT.run_bind]
  rcases (ExceptT.run m).run p with ⟨_ | a, q⟩
  · rfl
  · rfl

@[simp] theorem on_get_bind (f : Pixmap → InPlace β) : (get >>= f).on p = (f p).on p := rfl

@[simp] theorem on_ok_bind (a : α) (f : α → InPlace β) :
    ((liftM (.ok a : Except Failure α) : InPlace α) >>= f).on p = (f a).on p := rfl

/-- The outcome of a request whose checks all come before its first write. -/
def allOrNothing (p : Pixmap) : Except Failure Pixmap → Except Failure Unit × Pixmap
  | .ok q => (.ok (), q)
  | .error e => (.error e, p)

theorem on_change (f : Pixmap → Except Failure Pixmap) :
    (change f).on p = allOrNothing p (f p) := by
  simp only [change, on_bind, on_get, on_liftM]
  cases f p with
  | error e => rfl
  | ok q => rfl

theorem on_putRaw (x y : Nat) (v : Pixel) :
    (putRaw x y v).on p = allOrNothing p (p.putRaw x y v) := by
  rw [putRaw, on_get_bind, Pixmap.putRaw]
  cases p.checkInside x y with
  | error e => rfl
  | ok _ => exact on_change _

/-- The new rows are found and cleared before anything is assigned. -/
theorem on_resize (width height : Nat) :
    (resize width height).on p = allOrNothing p (p.resize width height).result := by
  rw [resize, on_get_bind, Pixmap.resize]
  simp only [Attempt.result_bind, Attempt.result_liftM]
  cases ofConfig (Frame.strideFor p.format width height p.align) with
  | error e => rfl
  | ok stride =>
    rw [on_ok_bind, ok_bind]
    cases ofConfig (Frame.bufferSize? width height stride) with
    | error e => rfl
    | ok size =>
      rw [on_ok_bind, ok_bind]
      change ((liftM (zeros size) : InPlace ByteArray) >>= _).on p = _
      cases zeros size with
      | error e => rfl
      | ok data => rfl

theorem left_of_error {m : InPlace Unit} {r : Except Failure Pixmap} {e : Failure}
    (h : m.on p = allOrNothing p r) (he : r = .error e) : m.left p = p := by
  rw [left, h, he]
  rfl

end Steps

/-- A request does what a function answers. Both answer the same, and the request leaves the pixmap
of the answer; or both fail the same, and it leaves the pixmap with other bytes. -/
inductive Does (p : Pixmap) : Except Failure α × Pixmap → Except Failure (α × Pixmap) → Prop
  | answered (a : α) (q : Pixmap) : Does p (.ok a, q) (.ok (a, q))
  | failed (e : Failure) {q : Pixmap} : p.Rewritten q → Does p (.error e, q) (.error e)

/-- A request without an answer does what a function makes of the pixmap. -/
def Makes (m : InPlace Unit) (p : Pixmap) (r : Except Failure Pixmap) : Prop :=
  Does p (m.on p) (r.map fun q => ((), q))

section Agreement
variable {p q : Pixmap}

theorem Does.after {out : Except Failure α × Pixmap} {r : Except Failure (α × Pixmap)}
    (h : Does q out r) (hq : p.Rewritten q) : Does p out r := by
  cases h with
  | answered a q => exact .answered a q
  | failed e h => exact .failed e (hq.trans h)

/-- The pixmap that is left is the answered one. A failure leaves other bytes at most. -/
theorem Does.left {m : InPlace α} {r : Except Failure (α × Pixmap)} (h : Does p (m.on p) r) :
    r.map Prod.snd = .ok (m.left p) ∨
      (∃ e, r.map Prod.snd = .error e) ∧ p.Rewritten (m.left p) := by
  unfold InPlace.left
  generalize m.on p = out at h
  cases h with
  | answered a q => exact .inl rfl
  | failed e h => exact .inr ⟨⟨e, rfl⟩, h⟩

theorem Makes.left {m : InPlace Unit} {r : Except Failure Pixmap} (h : Makes m p r) :
    r = .ok (m.left p) ∨ (∃ e, r = .error e) ∧ p.Rewritten (m.left p) := by
  have hleft := Does.left h
  cases r with
  | error e => exact hleft
  | ok q => exact hleft

theorem Does.bind_ok {m : InPlace α} {f : α → InPlace β} {a : α}
    {r : Except Failure (β × Pixmap)} (h : Does p (m.on p) (.ok (a, q))) (hq : p.Rewritten q)
    (hf : Does q ((f a).on q) r) : Does p ((m >>= f).on p) r := by
  rw [on_bind]
  generalize m.on p = out at h
  cases h with
  | answered a q => exact hf.after hq

theorem Does.bind_error {m : InPlace α} {f : α → InPlace β} {e : Failure}
    (h : Does p (m.on p) (.error e)) : Does p ((m >>= f).on p) (.error e) := by
  rw [on_bind]
  generalize m.on p = out at h
  cases h with
  | failed e h => exact .failed e h

theorem Does.bind_pure {m : InPlace α} {r : Except Failure (α × Pixmap)}
    (h : Does p (m.on p) r) (f : α → β) :
    Does p ((m >>= fun a => pure (f a)).on p) (r.map fun out => (f out.1, out.2)) := by
  rw [on_bind]
  generalize m.on p = out at h
  cases h with
  | answered a q => exact .answered (f a) q
  | failed e h => exact .failed e h

/-- After one request another, where both do what functions make of the pixmap. -/
theorem Makes.bind {m n : InPlace Unit} {r : Except Failure Pixmap}
    {g : Pixmap → Except Failure Pixmap} (h : Makes m p r)
    (hkept : ∀ q, r = .ok q → p.Rewritten q) (hn : ∀ q, Makes n q (g q)) :
    Makes (do m; n) p (r >>= g) := by
  cases r with
  | error e => exact Does.bind_error h
  | ok q => exact Does.bind_ok h (hkept q rfl) (hn q)

theorem makes_of_allOrNothing {m : InPlace Unit} {r : Except Failure Pixmap}
    (h : m.on p = allOrNothing p r) : Makes m p r := by
  rw [Makes, h]
  cases r with
  | error e => exact .failed e (.refl p)
  | ok q => exact .answered () q

theorem makes_change (f : Pixmap → Except Failure Pixmap) (p : Pixmap) :
    Makes (change f) p (f p) := makes_of_allOrNothing (on_change f)

theorem makes_putRaw (p : Pixmap) (x y : Nat) (v : Pixel) :
    Makes (putRaw x y v) p (p.putRaw x y v) := makes_of_allOrNothing (on_putRaw x y v)

theorem makes_resize (p : Pixmap) (width height : Nat) :
    Makes (resize width height) p (p.resize width height).result :=
  makes_of_allOrNothing (on_resize width height)

end Agreement

section Writes
variable (frame : Frame) (v : Pixel)

theorem makes_writeRun (data : ByteArray) (y n x : Nat) : Makes (writeRun y v n x) ⟨frame, data⟩
    ((frame.format.depth.writeRun data (y * frame.stride) v n x).map (Pixmap.mk frame)) := by
  induction n generalizing data x with
  | zero => exact .answered () _
  | succ n ih =>
    simp only [Makes, writeRun, Depth.writeRun, on_bind, on_change, Pixmap.write]
    cases hdata : frame.format.depth.write data (y * frame.stride) x v with
    | error e => exact .failed e (.refl _)
    | ok data' => exact (ih data' (x + 1)).after ⟨rfl, Depth.size_of_write hdata⟩

theorem makes_writeRuns (runs : List Run) (data : ByteArray) :
    Makes (writeRuns v runs) ⟨frame, data⟩
      ((Scanline.writeRuns frame.format.depth frame.stride v runs data).map (Pixmap.mk frame)) := by
  induction runs generalizing data with
  | nil => exact .answered () _
  | cons r rest ih =>
    have hrun := makes_writeRun frame v data r.y.toNat
      (r.last + 1 - r.first).toNat r.first.toNat
    rw [writeRuns, Scanline.writeRuns]
    cases hdata : frame.format.depth.writeRun data (r.y.toNat * frame.stride) v
        (r.last + 1 - r.first).toNat r.first.toNat with
    | error e =>
      rw [hdata] at hrun
      exact hrun.bind_error
    | ok data' =>
      rw [hdata] at hrun
      exact hrun.bind_ok ⟨rfl, Depth.size_of_writeRun hdata⟩ (ih data')

theorem does_draw (p : Pixmap) (s : Shape) (v : Pixel) :
    Does p ((draw s v).on p) (p.draw s v) := by
  rcases p with ⟨frame, data⟩
  have hruns := (makes_writeRuns frame v (s.runs frame.clipRect) data).bind_pure
    fun _ => s.box.intersect frame.clipRect
  rw [draw, on_get_bind, Pixmap.draw]
  dsimp only
  generalize Scanline.writeRuns _ _ v (s.runs frame.clipRect) data = r at hruns ⊢
  cases r with
  | error e => exact hruns
  | ok data' => exact hruns

theorem does_drawOriented (p : Pixmap) (s : Shape) (v : Pixel) :
    Does p ((drawOriented s v).on p) (p.drawOriented s v) := by
  rw [drawOriented, on_get_bind, Pixmap.drawOriented]
  exact does_draw p (s.orient p.toFrame) v

theorem makes_copyRows (bytes : ByteArray) (n y : Nat) (data : ByteArray) :
    Makes (copyRows bytes n y) ⟨frame, data⟩
      ((Pixmap.copyRows frame.stride bytes n y data).map (Pixmap.mk frame)) := by
  induction n generalizing data y with
  | zero => exact .answered () _
  | succ n ih =>
    simp only [Makes, copyRows, Pixmap.copyRows, on_bind, on_change, Pixmap.setBytes,
      Pixmap.rowStart]
    cases hdata : overwrite data (y * frame.stride) bytes with
    | error e => exact .failed e (.refl _)
    | ok data' => exact (ih (y + 1) data').after ⟨rfl, size_of_overwrite hdata⟩

theorem makes_fill (p : Pixmap) (v : Pixel) : Makes (fill v) p (p.fill v) := by
  rcases p with ⟨frame, data⟩
  rw [Makes, fill, on_get_bind, Pixmap.fill]
  dsimp only
  split
  · exact .answered () _
  have hrun := makes_writeRun frame v data 0 frame.width 0
  rw [Nat.zero_mul] at hrun
  cases hdata : frame.format.depth.writeRun data 0 v frame.width 0 with
  | error e =>
    rw [hdata] at hrun
    exact hrun.bind_error
  | ok data' =>
    rw [hdata] at hrun
    refine hrun.bind_ok ⟨rfl, Depth.size_of_writeRun hdata⟩ ?_
    rw [on_get_bind]
    dsimp only
    cases slice data' 0 frame.rowBytes with
    | error e => exact .failed e (.refl _)
    | ok bytes =>
      have hrows := makes_copyRows frame bytes (frame.height - 1) 1 data'
      rw [on_ok_bind]
      dsimp only
      generalize Pixmap.copyRows frame.stride bytes (frame.height - 1) 1 data' = r at hrows ⊢
      cases r with
      | error e => exact hrows
      | ok data'' => exact hrows

end Writes

end InPlace

end Scanline

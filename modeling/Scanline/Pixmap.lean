import Scanline.Format.Registry
import Scanline.Storage
/-! Pixmaps: a frame with the bytes of its rows. Rows may be longer than their pixels, and the data
longer than its rows; only whole-row access and `fill` see bytes, all else goes pixel by pixel. -/

namespace Scanline

structure Pixmap extends Frame where
  data : ByteArray

/-- A buffer of zeros, where memory can have that many bytes. -/
def zeros (n : Nat) : Except Failure ByteArray :=
  if n ≤ maxBuffer then .ok ⟨Array.replicate n 0⟩ else .error (.fault .noMemory)

/-- Turns the error of a configuration call into a failure. -/
def ofConfig {α : Type} (r : Except ConfigError α) : Except Failure α := r.mapError .config

namespace Pixmap

/-- A pixmap of zeros in a given format. -/
def create (format : Format) (width height align : Nat) (orientation : Orientation) :
    Except Failure Pixmap := do
  let stride ← ofConfig (Frame.strideFor format width height align)
  let size ← ofConfig (Frame.bufferSize? width height stride)
  let data ← zeros size
  return ⟨⟨width, height, stride, align, format, none, orientation⟩, data⟩

def ofRegistry (r : Registry) (width height tag align : Nat) (orientation : Orientation) :
    Except Failure Pixmap := do
  create (← ofConfig (r.format tag)) width height align orientation

def ofStandard (width height tag : Nat) : Except Failure Pixmap :=
  ofRegistry Registry.standard width height tag 1 .upright

/-- As `ofStandard`, where errors break the contract. -/
def new (width height tag : Nat) : Except Failure Pixmap :=
  match ofStandard width height tag with
  | .error (.config e) => .error (.misuse (.cannotCreate width height e))
  | r => r

/-- A pixmap over bytes made elsewhere. -/
def ofData (width height stride : Nat) (format : Format) (data : ByteArray) :
    Except ConfigError Pixmap := do
  let least ← Frame.strideFor format width height 1
  if stride < least then throw (.strideTooSmall stride least)
  let required ← Frame.bufferSize? width height stride
  if data.size < required then throw (.bufferTooSmall data.size required)
  return ⟨⟨width, height, stride, 1, format, none, .upright⟩, data⟩

/-- A new size, with every pixel zero. Clip and orientation stay. -/
def resize (p : Pixmap) (width height : Nat) : Attempt Pixmap := do
  let stride ← ofConfig (Frame.strideFor p.format width height p.align)
  let size ← ofConfig (Frame.bufferSize? width height stride)
  Attempt.note (.resizing p.toFrame width height)
  let data ← zeros size
  return { p with width, height, stride, data }

def setClip (p : Pixmap) (clip : Option Box) : Pixmap := { p with clip }

def setOrientation (p : Pixmap) (orientation : Orientation) : Pixmap := { p with orientation }

def rowStart (p : Pixmap) (y : Nat) : Nat := y * p.stride

/-- Reads the pixel at `(x, y)` wherever the data has one. -/
def read (p : Pixmap) (x y : Nat) : Except Failure Pixel :=
  p.format.depth.read p.data (p.rowStart y) x

def write (p : Pixmap) (x y : Nat) (v : Pixel) : Except Failure Pixmap :=
  let ⟨frame, data⟩ := p
  match frame.format.depth.write data (y * frame.stride) x v with
  | .ok data => .ok ⟨frame, data⟩
  | .error e => .error e

/-- Reads a pixel; outside the buffer there are zeros. -/
def get (p : Pixmap) (q : Point) : Except Failure Pixel :=
  if q ∈ p.bounds then p.read q.x.toNat q.y.toNat else .ok 0

/-- Refuses a point outside the buffer. -/
def checkInside (p : Pixmap) (x y : Nat) : Except Failure Unit :=
  if x < p.width ∧ y < p.height then .ok ()
  else .error (.misuse (.pixelOutside x y p.width p.height))

def getRaw (p : Pixmap) (x y : Nat) : Except Failure Pixel := do
  p.checkInside x y
  p.read x y

/-- Writes a pixel of the buffer whatever the clip. -/
def putRaw (p : Pixmap) (x y : Nat) (v : Pixel) : Except Failure Pixmap := do
  p.checkInside x y
  p.write x y v

def row (p : Pixmap) (y : Nat) : Except Failure ByteArray := slice p.data (p.rowStart y) p.rowBytes

/-- Replaces the first packed bytes of row `y`. -/
def setRow (p : Pixmap) (y : Nat) (bytes : ByteArray) : Except Failure Pixmap :=
  if p.rowStart y + p.rowBytes ≤ p.data.size ∧ bytes.size ≤ p.rowBytes then
    (overwrite p.data (p.rowStart y) bytes).map fun data => { p with data }
  else .error (.fault .outside)

/-- Replaces bytes anywhere in the data. -/
def setBytes (p : Pixmap) (i : Nat) (bytes : ByteArray) : Except Failure Pixmap :=
  (overwrite p.data i bytes).map fun data => { p with data }

/-- Copies packed row bytes to the start of each of `n` rows from `y` on. -/
def copyRows (stride : Nat) (bytes : ByteArray) : (n y : Nat) → ByteArray → Except Failure ByteArray
  | 0, _, data => .ok data
  | n + 1, y, data =>
    match overwrite data (y * stride) bytes with
    | .ok data => copyRows stride bytes n (y + 1) data
    | .error e => .error e

/-- Sets every pixel whatever the clip: the first row pixel by pixel, the others as its copies. -/
def fill (p : Pixmap) (v : Pixel) : Except Failure Pixmap :=
  if p.width = 0 ∨ p.height = 0 then .ok p
  else
    let ⟨frame, data⟩ := p
    match frame.format.depth.writeRun data 0 v frame.width 0 with
    | .error e => .error e
    | .ok data =>
      match slice data 0 frame.rowBytes with
      | .error e => .error e
      | .ok bytes =>
        match copyRows frame.stride bytes (frame.height - 1) 1 data with
        | .error e => .error e
        | .ok data => .ok ⟨frame, data⟩

def clear (p : Pixmap) : Except Failure Pixmap := p.fill 0

/-- Sets the pixels of one row to the values of a function, from column `x` on. -/
def generateRow (f : Nat → Nat → Pixel) (y : Nat) : (n x : Nat) → Pixmap → Except Failure Pixmap
  | 0, _, p => .ok p
  | n + 1, x, p =>
    match p.putRaw x y (f x y) with
    | .ok p => generateRow f y n (x + 1) p
    | .error e => .error e

/-- Sets the pixels of `n` rows from `y` on to the values of a function. -/
def generateRows (f : Nat → Nat → Pixel) (width : Nat) :
    (n y : Nat) → Pixmap → Except Failure Pixmap
  | 0, _, p => .ok p
  | n + 1, y, p =>
    match generateRow f y width 0 p with
    | .ok p => generateRows f width n (y + 1) p
    | .error e => .error e

def generate (p : Pixmap) (f : Nat → Nat → Pixel) : Except Failure Pixmap :=
  generateRows f p.width p.height 0 p

/-- The values of a `w` by `h` block of pixels, row by row. -/
def block (p : Pixmap) (x y : Int) (w h : Nat) : Except Failure (List (List Pixel)) :=
  (List.range h).mapM fun (j : Nat) => (List.range w).mapM fun (i : Nat) => p.get ⟨x + i, y + j⟩

/-- Refuses a pixmap of another depth. -/
def checkDepth (p : Pixmap) (depth : Depth) : Except Failure Unit :=
  if p.format.depth = depth then .ok () else .error (.misuse .depthMismatch)

end Pixmap

end Scanline

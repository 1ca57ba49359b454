import Scanline.Inspect
import Scanline.Screen
/-! Fixed checks of the library on itself: nothing is written outside the pixels, extreme
coordinates are cut off, impossible pixmaps are refused, and clients that share a screen leave the
right damage. A check fails with a text. -/

namespace Scanline.Safety

/-- The outcome of a check: nothing, or the text of the failure. -/
abbrev Outcome := Option String

structure Check where
  name : String
  run : Attempt Outcome

/-- The first failure among several cases. -/
def firstFailure {α : Type} (cases : List α) (check : α → Attempt Outcome) : Attempt Outcome :=
  cases.findSomeM? check

def paddingMark : UInt8 := 0x5a

/-- A pixmap with wide row alignment and marked padding. -/
def padded (tag width height : Nat) : Except Failure Pixmap := do
  let p ← Pixmap.ofRegistry Registry.standard width height tag 16 .upright
  p.fillPadding paddingMark

def pointText (p : Point) : String := s!"({p.x}, {p.y})"

/-! ### Clipped copies -/

/-- A window of a 16 by 16 pixmap and a place far outside or across the edge of an 8 by 8 one. -/
def copyCases : List (Window × Point) :=
  let whole := Window.ofCorners ⟨0, 0⟩ ⟨15, 15⟩
  let everything := Window.ofCorners ⟨coordMin, coordMin⟩ ⟨coordMax, coordMax⟩
  [(whole, ⟨0, 0⟩), (whole, ⟨-3, -3⟩), (Window.ofCorners ⟨15, 15⟩ ⟨0, 0⟩, ⟨5, 5⟩),
    (whole, ⟨7, 0⟩), (whole, ⟨-15, 7⟩), (whole, ⟨coordMax, coordMax⟩), (whole, ⟨coordMin, 0⟩),
    (everything, ⟨coordMin, coordMin⟩), (everything, ⟨0, coordMin⟩)]

/-- The answered box lies in the destination, is all of it where the window covers it, and has as
many pixels as were lit. -/
def checkCopy (src : Pixmap) (c : Window × Point) : Attempt Outcome := do
  let (r, q) := c
  let (box, dst) ← (← padded Format.g4.tag 8 8).blitClipped src r q
  if !dst.bounds.covers box || (q = ⟨-3, -3⟩ && box != dst.bounds) then
    return s!"blit to {pointText q} reported {box.geometry}"
  if !(← dst.paddingIs paddingMark) then return s!"blit to {pointText q} wrote padding"
  let lit ← dst.lit
  if lit.length ≠ box.area then
    return s!"blit to {pointText q} wrote {lit.length} pixels for {box.geometry}"
  return none

def clippedCopies : Attempt Outcome := do
  let src ← (← Pixmap.new 16 16 Format.g4.tag).fill 0xf
  firstFailure copyCases (checkCopy src)

/-! ### Circles -/

def circleCases : List (Point × Int) :=
  [(⟨100000, 8⟩, 99995), (⟨-50000, -50000⟩, 70710), (⟨8, 8⟩, 65535), (⟨8, 8⟩, coordMax),
    (⟨coordMin, 8⟩, coordMax)]

def checkCircle (c : Point × Int) : Attempt Outcome := do
  let (center, r) := c
  let blank ← padded Format.g1.tag 16 16
  let (a, outline) ← blank.draw (.circle center r) 1
  let (b, disk) ← blank.draw (.disk center r) 1
  if !blank.bounds.covers a || a != b then
    return s!"circle r={r} reported {a.geometry} and {b.geometry}"
  if !(← outline.paddingIs paddingMark) || !(← disk.paddingIs paddingMark) then
    return s!"circle r={r} wrote padding"
  let inDisk ← disk.lit
  if !(← outline.lit).all inDisk.contains then return s!"circle r={r} outline leaves the disk"
  if r = coordMax && center.x = 8 && inDisk.length ≠ 256 then
    return "centered disk left pixels unset"
  return none

def hugeCircles : Attempt Outcome := firstFailure circleCases checkCircle

/-! ### Extreme coordinates -/

/-- Shapes that end where the coordinates do, with their pixel values. -/
def extremeShapes : List (Shape × Pixel) :=
  [(.line ⟨coordMin, coordMin⟩ ⟨coordMax, coordMax⟩, 0xffffff),
    (.line ⟨coordMin, 5⟩ ⟨coordMax, 5⟩, 0xff),
    (.solidRect ⟨coordMin, coordMin⟩ ⟨coordMax, coordMax⟩, 0x10),
    (.rect ⟨-1, -1⟩ ⟨coordMax, coordMax⟩, 0x20),
    (.solidTetragon ⟨⟨coordMin, 0⟩, ⟨0, coordMin⟩, ⟨coordMax, 0⟩, ⟨0, coordMax⟩⟩, 0x30)]

/-- Draws shapes one over the other, with the box of each. -/
def drawAll (p : Pixmap) : List (Shape × Pixel) → Except Failure (List Box × Pixmap)
  | [] => return ([], p)
  | (s, v) :: rest => do
    let (box, p) ← p.draw s v
    let (boxes, p) ← drawAll p rest
    return (box :: boxes, p)

def extremeCoordinates : Attempt Outcome := do
  let blank ← padded Format.rgb888.tag 10 10
  let (boxes, p) ← drawAll blank extremeShapes
  if let some box := boxes.find? fun box => !blank.bounds.covers box then
    return s!"{box.geometry} outside {blank.bounds.geometry}"
  if !(← p.paddingIs paddingMark) then return "Row padding modified"
  if (← p.get ⟨0, 0⟩) ≠ 0x30 then return "Last fill did not cover the pixmap"
  return none

/-! ### Access outside the buffer -/

def outsidePoints : List Point := [⟨-1, 0⟩, ⟨5, 0⟩, ⟨0, 3⟩, ⟨coordMin, coordMax⟩]

/-- Writes and reads back points outside the buffer; the answer is one that reads other than
zero. -/
def firstReadable? (p : Pixmap) : List Point → Except Failure (Option Point × Pixmap)
  | [] => return (none, p)
  | q :: rest => do
    let p ← p.put q 3
    if (← p.get q) ≠ 0 then return (some q, p) else firstReadable? p rest

/-- The text of an outcome that is not the expected error. -/
def refusalText {α : Type} : Except ConfigError α → String
  | .ok _ => "None"
  | .error e => s!"Some({e.message})"

def outsideAccess : Attempt Outcome := do
  let before ← Pixmap.new 5 3 Format.g2.tag
  let (readable, after) ← firstReadable? before outsidePoints
  if let some q := readable then return s!"{pointText q} readable outside buffer"
  if after.data != before.data then return "Out of bounds write reached the buffer"
  if let .ok _ := Pixmap.ofStandard sizeMax 1 Format.xrgb8888.tag then
    return "Oversized pixmap was created"
  let bytes (n : Nat) : ByteArray := ⟨Array.replicate n 0⟩
  match Pixmap.ofData 4 4 3 Format.g8 (bytes 16) with
  | .error (.strideTooSmall 3 4) => pure ()
  | other => return s!"Short stride accepted: {refusalText other}"
  match Pixmap.ofData 4 4 4 Format.g8 (bytes 15) with
  | .error (.bufferTooSmall 15 16) => return none
  | other => return s!"Short buffer accepted: {refusalText other}"

/-! ### Row padding -/

/-- Shapes that reach the last column and row of a 13 by 7 pixmap. -/
def edgeShapes : List Shape :=
  [.disk ⟨12, 3⟩ 4, .hline (-5) 40 6, .vline 12 (-5) 40, .line ⟨0, 0⟩ ⟨12, 6⟩,
    .tetragon ⟨⟨0, 0⟩, ⟨12, 0⟩, ⟨12, 6⟩, ⟨0, 6⟩⟩, .point ⟨12, 6⟩]

def checkPadding (tag : Nat) : Attempt Outcome := do
  let blank ← padded tag 13 7
  let (_, p) ← drawAll blank (edgeShapes.map fun s => (s, 1))
  if !(← p.paddingIs paddingMark) then return s!"PixelType({tag}) padding modified"
  if (← p.get ⟨12, 0⟩) ≠ 1 then return s!"PixelType({tag}) last column not drawn"
  return none

def stridePadding : Attempt Outcome :=
  firstFailure [Format.g1.tag, Format.g2.tag, Format.g4.tag, Format.rgb888.tag] checkPadding

/-! ### Shared screens -/

/-- The square that a client paints. -/
def clientSquare (i : Nat) : Shape :=
  let corner : Int := i * 8
  .solidRect ⟨corner, corner⟩ ⟨corner + 3, corner + 3⟩

/-- Clients paint one after the other. -/
def paintClients (s : Screen) : List Nat → Except Failure Screen
  | [] => return s
  | i :: rest => do
    let (_, s) ← s.draw (clientSquare i) 0xffff
    paintClients s rest

def sharedScreen : Attempt Outcome := do
  let pixmap ← Pixmap.new 64 64 Format.rgb565.tag
  let damage := Damage.new 64 64 { DamageConfig.default with startFull := false }
  let s ← paintClients ⟨pixmap, damage⟩ (List.range 4)
  let (redraw, _) := s.damage.take
  if redraw ≠ .rect (Box.ofSize 0 0 28 28) then
    return s!"Unexpected damage {redraw.fieldText}"
  let lit ← s.pixmap.lit
  if lit.length ≠ 4 * 16 then return s!"{lit.length} pixels drawn, expected 64"
  return none

/-! ### All checks -/

def checks : List Check :=
  [⟨"clipped_blit_bounds", clippedCopies⟩, ⟨"huge_circle", hugeCircles⟩,
    ⟨"extreme_coordinates", extremeCoordinates⟩, ⟨"raw_access_bounds", outsideAccess⟩,
    ⟨"stride_padding", stridePadding⟩, ⟨"shared_pixmap", sharedScreen⟩]

/-- Runs every check. A pixmap that cannot be made is a failure of its check. -/
def runAll : List Check → Attempt (List (String × Outcome))
  | [] => return []
  | c :: rest => do
    let outcome ←
      match c.run.result with
      | .error (.config e) => ⟨.ok (some e.message), c.run.notes⟩
      | _ => c.run
    return (c.name, outcome) :: (← runAll rest)

end Scanline.Safety

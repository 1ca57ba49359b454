import Scanline.Fuzz.Target
import Scanline.Inspect
/-! Pixmaps for trials: of any standard format, with small sides and a few row alignments, and
painted so that every pixel can be told from its neighbours. -/

namespace Scanline.Fuzz

def maxSide : Nat := 24

/-- The byte that marks padding. -/
def paddingMark : UInt8 := 0xa5

structure Specimen where
  tag : Nat
  width : Nat
  height : Nat
  align : Nat
deriving DecidableEq

namespace Specimen

def read : Reader Specimen := do
  let tag := (← Reader.byte).toNat % Registry.standard.size
  let width ← Reader.size maxSide
  let height ← Reader.size maxSide
  let align := 1 <<< ((← Reader.byte).toNat % 4)
  return ⟨tag, width, height, align⟩

def pixmap (s : Specimen) : Except Failure Pixmap :=
  Pixmap.ofRegistry Registry.standard s.width s.height s.tag s.align .upright

end Specimen

/-- The pixel of a cell in a painted pixmap. -/
def pattern (salt : Pixel) (x y : Nat) : Pixel :=
  let v := (x.toUInt32 * 0x9e3779b9) ^^^ (y.toUInt32 * 0x85ebca6b) ^^^ salt
  (v <<< 7) ||| (v >>> 25)

def hexText (v : Pixel) : String := "0x" ++ String.ofList (Nat.toDigits 16 v.toNat)

namespace Target

variable {σ α : Type}

/-- A target that reads a trial from an input of at least `least` bytes and judges it. Pixmaps that
cannot be made are no fault of the library. -/
def ofTrial (name : String) (least : Nat) (read : Reader α) (judge : α → Attempt Verdict) :
    Target σ :=
  ofJudge name fun input =>
    if input.length < least then return .rejected
    else
      let a := judge (read input).1
      match a.result with
      | .error (.config _) => ⟨.ok .rejected, a.notes⟩
      | _ => a

end Target

end Scanline.Fuzz

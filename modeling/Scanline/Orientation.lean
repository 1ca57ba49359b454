/-! The eight orientations of a picture: the axes may trade places, and then each may be
mirrored. -/

namespace Scanline

structure Orientation where
  swapAxes : Bool
  mirrorX : Bool
  mirrorY : Bool
deriving DecidableEq

namespace Orientation

def upright : Orientation := ⟨false, false, false⟩

instance : Inhabited Orientation := ⟨upright⟩

/-- The orientation of three flag bits: 1 swaps the axes, 2 and 4 mirror x and y. -/
def ofBits (n : Nat) : Orientation := ⟨n.testBit 0, n.testBit 1, n.testBit 2⟩

def toBits (o : Orientation) : Nat :=
  (if o.swapAxes then 1 else 0) + (if o.mirrorX then 2 else 0) + (if o.mirrorY then 4 else 0)

def flagNames (o : Orientation) : List String :=
  (if o.swapAxes then ["AXES_SWAP"] else []) ++ (if o.mirrorX then ["X_SWAP"] else []) ++
    (if o.mirrorY then ["Y_SWAP"] else [])

def fieldText (o : Orientation) : String :=
  let flags := if o = upright then "0x0" else " | ".intercalate o.flagNames
  s!"Orientation({flags})"

theorem ofBits_toBits (o : Orientation) : ofBits o.toBits = o := by
  rcases o with ⟨_ | _, _ | _, _ | _⟩ <;> rfl

end Orientation

end Scanline

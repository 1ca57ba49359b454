import Scanline.Failure
/-! Test inputs are bytes, and a trial reads its numbers from them. Past the end there are zeros,
so that every input reads as something. -/

namespace Scanline.Fuzz

abbrev Input := List UInt8

/-- Reads from the front of what is left of an input. -/
abbrev Reader := StateM Input

namespace Reader

def byte : Reader UInt8
  | [] => (0, [])
  | b :: rest => (b, rest)

/-- A little-endian number of `n` bytes. -/
def unsigned : Nat → Reader Nat
  | 0 => pure 0
  | n + 1 => do
    let low ← byte
    let high ← unsigned n
    return low.toNat + 256 * high

/-- A little-endian number of `n` bytes in two's complement. -/
def signed (n : Nat) : Reader Int := return Int.bmod (← unsigned n) (1 <<< (8 * n))

/-- One tag in four starts a number of four bytes, the others one of a single byte, so that most
numbers are small. -/
def isWide (tag : UInt8) : Bool := tag &&& 3 == 0

def coord : Reader Int := do
  if isWide (← byte) then signed 4 else signed 1

def extent : Reader Nat := do
  if isWide (← byte) then unsigned 4 else unsigned 1

/-- A value from one to `most`, which is not zero. -/
def size (most : Nat) : Reader Nat := return 1 + (← byte).toNat % most

/-- As `size`; there is nothing to choose from if `most` is zero. -/
def checkedSize (most : Nat) : Reader (Except Failure Nat) := do
  let n ← size most
  return if most = 0 then .error (.fault .zeroDivision) else .ok n

end Reader

end Scanline.Fuzz

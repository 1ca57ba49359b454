import Scanline.Depth
import Scanline.Failure
/-! Pixels in bytes. Pixels smaller than a byte are packed from the most significant bit down;
larger ones are little-endian words of one to four bytes. A row is named by its first byte, and
an access outside the buffer is a fault. Nothing here knows how many pixels a row has. -/

namespace Scanline

/-- The little-endian word of `n` bytes at `i`. -/
def readWord (data : ByteArray) : (n i : Nat) → Except Failure Pixel
  | 0, _ => .ok 0
  | n + 1, i =>
    if h : i < data.size then
      match readWord data n (i + 1) with
      | .ok rest => .ok (data[i].toUInt32 ||| (rest <<< 8))
      | .error e => .error e
    else .error (.fault .outside)

/-- Stores the low `n` bytes of a word at `i`, the least significant first. -/
def writeWord (data : ByteArray) : (n i : Nat) → Pixel → Except Failure ByteArray
  | 0, _, _ => .ok data
  | n + 1, i, v =>
    if h : i < data.size then writeWord (data.set i v.toUInt8 h) n (i + 1) (v >>> 8)
    else .error (.fault .outside)

/-- Replaces the bytes from `i` on by the given ones. -/
def overwrite (data : ByteArray) (i : Nat) (bytes : ByteArray) : Except Failure ByteArray :=
  if i + bytes.size ≤ data.size then .ok (bytes.copySlice 0 data i bytes.size)
  else .error (.fault .outside)

def slice (data : ByteArray) (i n : Nat) : Except Failure ByteArray :=
  if i + n ≤ data.size then .ok (data.extract i (i + n)) else .error (.fault .outside)

namespace Depth

/-- The first byte that holds pixel `x` of the row at byte `row`. -/
def byteIndex (d : Depth) (row x : Nat) : Nat := row + x * d.bits / 8

/-- How far a packed pixel lies above the low end of its byte. -/
def shift (d : Depth) (x : Nat) : UInt8 := (8 - d.bits - x * d.bits % 8).toUInt8

def read (d : Depth) (data : ByteArray) (row x : Nat) : Except Failure Pixel :=
  if d.isPacked then
    let i := d.byteIndex row x
    if h : i < data.size then .ok ((data[i] >>> d.shift x) &&& d.mask.toUInt8).toUInt32
    else .error (.fault .outside)
  else readWord data d.bytes (d.byteIndex row x)

/-- Writes pixel `x` of the row at byte `row`. Bits of the value above the depth are dropped. -/
def write (d : Depth) (data : ByteArray) (row x : Nat) (v : Pixel) : Except Failure ByteArray :=
  if d.isPacked then
    let i := d.byteIndex row x
    let mask := d.mask.toUInt8 <<< d.shift x
    if h : i < data.size then
      .ok (data.set i ((data[i] &&& ~~~mask) ||| ((v.toUInt8 <<< d.shift x) &&& mask)) h)
    else .error (.fault .outside)
  else writeWord data d.bytes (d.byteIndex row x) v

/-- Writes `n` neighbouring pixels from `x` on with one value. -/
def writeRun (d : Depth) (data : ByteArray) (row : Nat) (v : Pixel) :
    (n x : Nat) → Except Failure ByteArray
  | 0, _ => .ok data
  | n + 1, x =>
    match d.write data row x v with
    | .ok data => d.writeRun data row v n (x + 1)
    | .error e => .error e

end Depth

end Scanline

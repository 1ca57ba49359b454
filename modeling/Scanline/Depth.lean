/-! The number of bits that one pixel takes: whole bytes, or a fraction of one. -/

namespace Scanline

/-- A pixel value. Its bits are laid out by a format. -/
abbrev Pixel := UInt32

inductive Depth where
  | one | two | four | eight | sixteen | twentyFour | thirtyTwo
deriving DecidableEq

namespace Depth

def bits : Depth → Nat
  | one => 1
  | two => 2
  | four => 4
  | eight => 8
  | sixteen => 16
  | twentyFour => 24
  | thirtyTwo => 32

def all : List Depth := [one, two, four, eight, sixteen, twentyFour, thirtyTwo]

def ofBits? (n : Nat) : Option Depth := all.find? fun d => d.bits == n

/-- Whether several pixels share one byte. -/
def isPacked (d : Depth) : Bool := d.bits < 8

/-- The bytes that one pixel touches. -/
def bytes (d : Depth) : Nat := (d.bits + 7) / 8

def mask : Depth → Pixel
  | one => 0x1
  | two => 0x3
  | four => 0xf
  | eight => 0xff
  | sixteen => 0xffff
  | twentyFour => 0xffffff
  | thirtyTwo => 0xffffffff

/-- The bytes of a row of `width` pixels without padding. -/
def rowBytes (d : Depth) (width : Nat) : Nat := (width * d.bits + 7) / 8

theorem ofBits?_bits (d : Depth) : ofBits? d.bits = some d := by cases d <;> rfl

theorem toNat_mask (d : Depth) : d.mask.toNat = 1 <<< d.bits - 1 := by cases d <;> rfl

theorem bits_pos (d : Depth) : 0 < d.bits := by cases d <;> decide

theorem bits_le (d : Depth) : d.bits ≤ 32 := by cases d <;> decide

end Depth

end Scanline

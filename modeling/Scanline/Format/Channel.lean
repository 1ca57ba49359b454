import Scanline.Depth
import Scanline.Failure
/-! Channels: the bit fields of a pixel, and how their levels scale to and from eight bits.
Fields of any width are admitted; a field without bits has no levels to scale from. -/

namespace Scanline

structure Rgba where
  r : UInt8
  g : UInt8
  b : UInt8
  a : UInt8
deriving DecidableEq

inductive ChannelKind where
  | red | green | blue | alpha
  /-- Gray intensity. -/
  | value
  | pad
deriving DecidableEq

namespace ChannelKind

def all : List ChannelKind := [red, green, blue, alpha, value, pad]

def name : ChannelKind → String
  | red => "Red"
  | green => "Green"
  | blue => "Blue"
  | alpha => "Alpha"
  | value => "Value"
  | pad => "Pad"

/-- Whether the channel holds one of the three color parts. -/
def isColor (k : ChannelKind) : Bool := k == red || k == green || k == blue

end ChannelKind

structure Channel where
  kind : ChannelKind
  /-- Distance from the least significant bit of the pixel. -/
  offset : Nat
  size : Nat
deriving DecidableEq

namespace Channel

/-- The mask of the lowest `n` bits of a pixel. -/
def lowBits (n : Nat) : Pixel := if n ≥ 32 then 0xffffffff else (1 <<< n.toUInt32) - 1

def full (c : Channel) : Pixel := lowBits c.size

/-- The level of this channel in a pixel. -/
def level (c : Channel) (p : Pixel) : Pixel := (p >>> c.offset.toUInt32) &&& c.full

/-- The level of this channel in a pixel, scaled to eight bits. Wide channels give their top
bits. -/
def get8 (c : Channel) (p : Pixel) : Except Failure UInt8 :=
  if c.size ≥ 8 then .ok (c.level p >>> (c.size - 8).toUInt32).toUInt8
  else if c.full = 0 then .error (.fault .zeroDivision)
  else .ok (c.level p * 255 / c.full).toUInt8

/-- The level that stands for an eight-bit value, moved into place. -/
def put8 (c : Channel) (v : UInt8) : Pixel :=
  let level :=
    if c.size ≥ 8 then v.toUInt32 <<< (c.size - 8).toUInt32
    else (v.toUInt32 * c.full + 127) / 255
  (level &&& c.full) <<< c.offset.toUInt32

def fieldText (c : Channel) : String :=
  s!"Channel \x7b kind: {c.kind.name}, offset: {c.offset}, size: {c.size} \x7d"

end Channel

end Scanline

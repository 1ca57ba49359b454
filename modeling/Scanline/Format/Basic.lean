import Scanline.Format.Channel
/-! Pixel formats: a depth with a list of at most four channels, and the conversion of pixels from
one format to another through colors. A format may be any such list; only a registry checks it. -/

namespace Scanline

def maxChannels : Nat := 4

structure Format where
  /-- The tag under which a registry finds the format. -/
  tag : Nat
  name : String
  depth : Depth
  channels : List Channel
deriving DecidableEq

namespace Format

/-- A format with the first four of the given channels. -/
def ofChannels (tag : Nat) (name : String) (depth : Depth) (channels : List Channel) : Format :=
  ⟨tag, name, depth, channels.take maxChannels⟩

def channel? (f : Format) (kind : ChannelKind) : Option Channel :=
  f.channels.find? fun c => c.kind == kind

def hasAlpha (f : Format) : Bool := (f.channel? .alpha).isSome

def isGray (f : Format) : Bool := (f.channel? .value).isSome

/-- Two formats with one layout store equal colors as equal pixels. -/
def sameLayout (f g : Format) : Bool := f.channels == g.channels && f.depth == g.depth

/-- Sets the part of a color that a channel holds. -/
def unpackChannel (p : Pixel) (color : Rgba) (c : Channel) : Except Failure Rgba :=
  match c.kind with
  | .pad => .ok color
  | .red => (c.get8 p).map fun v => { color with r := v }
  | .green => (c.get8 p).map fun v => { color with g := v }
  | .blue => (c.get8 p).map fun v => { color with b := v }
  | .alpha => (c.get8 p).map fun v => { color with a := v }
  | .value => (c.get8 p).map fun v => { color with r := v, g := v, b := v }

/-- The color of a pixel. Gray fills the three color parts, and no alpha is opaque. -/
def unpack (f : Format) (p : Pixel) : Except Failure Rgba :=
  f.channels.foldlM (unpackChannel p) ⟨0, 0, 0, 255⟩

/-- The gray of a color is the average of its color parts. -/
def gray (c : Rgba) : UInt8 := ((c.r.toUInt32 + c.g.toUInt32 + c.b.toUInt32) / 3).toUInt8

/-- The bits that one channel gives to the pixel of a color. -/
def packChannel (color : Rgba) (c : Channel) : Pixel :=
  match c.kind with
  | .red => c.put8 color.r
  | .green => c.put8 color.g
  | .blue => c.put8 color.b
  | .alpha => c.put8 color.a
  | .value => c.put8 (gray color)
  | .pad => 0

def pack (f : Format) (color : Rgba) : Pixel :=
  f.channels.foldl (fun p c => p ||| packChannel color c) 0

def rgb (f : Format) (r g b : UInt8) : Pixel := f.pack ⟨r, g, b, 255⟩

def convert (f : Format) (p : Pixel) (target : Format) : Except Failure Pixel :=
  if f.sameLayout target then .ok (p &&& target.depth.mask) else (f.unpack p).map target.pack

def channelText (f : Format) : String :=
  "[" ++ ", ".intercalate (f.channels.map Channel.fieldText) ++ "]"

end Format

end Scanline

/-! Why an operation did not answer: an error that its caller may handle, a request that breaks the
operation's contract, or a fault of the machine. Each of the first two has one text. -/

namespace Scanline

/-- Errors of the calls that build pixmaps and register formats. -/
inductive ConfigError where
  /-- The buffer does not fit in memory. -/
  | dimensionsTooLarge (width height : Nat)
  | invalidStrideAlign (align : Nat)
  | strideTooSmall (stride least : Nat)
  | bufferTooSmall (size required : Nat)
  | unknownPixelType (tag : Nat)
  | duplicateFormat (name : String)
  | invalidChannel (name : String)
deriving DecidableEq

namespace ConfigError

def message : ConfigError → String
  | dimensionsTooLarge width height => s!"dimensions {width}x{height} too large"
  | invalidStrideAlign align => s!"stride alignment {align} is not a power of two"
  | strideTooSmall stride least => s!"stride {stride} smaller than row size {least}"
  | bufferTooSmall size required => s!"buffer of {size} bytes, {required} required"
  | unknownPixelType tag => s!"unknown pixel type {tag}"
  | duplicateFormat name => s!"format {name} already registered"
  | invalidChannel name => s!"invalid channel layout for {name}"

end ConfigError

/-- Requests that break the contract of an operation. -/
inductive Misuse where
  | pixelOutside (x y width height : Nat)
  | cannotCreate (width height : Nat) (reason : ConfigError)
  | depthMismatch
  /-- Inclusive corners of a copied rectangle that leaves its source. -/
  | blitSource (x0 y0 x1 y1 : Int) (width height : Nat)
  /-- Size and place of a copied rectangle that leaves its destination. -/
  | blitDestination (w h x y : Int) (width height : Nat)
  | orientedBlitSource (w h x y : Int) (width height : Nat)
  | orientedBlitDestination (w h x y : Int) (width height : Nat)
deriving DecidableEq

namespace Misuse

def message : Misuse → String
  | pixelOutside x y width height => s!"pixel ({x}, {y}) outside {width}x{height} pixmap"
  | cannotCreate width height reason =>
    s!"cannot create {width}x{height} pixmap: {reason.message}"
  | depthMismatch => "codec does not match pixmap depth"
  | blitSource x0 y0 x1 y1 width height =>
    s!"blit source ({x0}, {y0})-({x1}, {y1}) outside {width}x{height} pixmap"
  | blitDestination w h x y width height =>
    s!"blit destination {w}x{h} at ({x}, {y}) outside {width}x{height} pixmap"
  | orientedBlitSource w h x y width height =>
    s!"oriented blit source {w}x{h} at ({x}, {y}) outside {width}x{height} pixmap"
  | orientedBlitDestination w h x y width height =>
    s!"oriented blit destination {w}x{h} at ({x}, {y}) outside {width}x{height} pixmap"

end Misuse

/-- What stops a machine. -/
inductive Fault where
  /-- A position outside of its buffer. -/
  | outside
  | zeroDivision
  /-- More bytes than one buffer can have. -/
  | noMemory
  /-- A number that its word cannot hold. -/
  | overflow
deriving DecidableEq

inductive Failure where
  | config (e : ConfigError)
  | misuse (m : Misuse)
  | fault (f : Fault)
deriving DecidableEq

end Scanline

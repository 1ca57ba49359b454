import Scanline.Note
/-! Damage: what a screen has to show again. Boxes are gathered into one pending box until they are
taken; then the pending box is cut to the screen, or the whole screen is shown where the box is a
large enough part of it. -/

namespace Scanline

structure DamageConfig where
  /-- The part of the screen, in percent, from which on all of it is shown again. -/
  fullRedrawPercent : Nat
  /-- Whether the first answer is the whole screen. -/
  startFull : Bool
deriving DecidableEq

namespace DamageConfig

def default : DamageConfig := ⟨50, true⟩

end DamageConfig

inductive Redraw where
  | nothing
  | full
  | rect (b : Box)
deriving DecidableEq

/-- What a display is told to do. -/
inductive Refresh where
  | flip
  | update (b : Box)
deriving DecidableEq

namespace Redraw

def fieldText : Redraw → String
  | nothing => "Nothing"
  | full => "Full"
  | rect b => s!"Rect({b.fieldText})"

def refreshes : Redraw → List Refresh
  | nothing => []
  | full => [.flip]
  | rect b => [.update b]

end Redraw

structure DamageStats where
  /-- Boxes added that were not empty. -/
  boxesAdded : Nat
  flushes : Nat
  /-- How often that was the whole screen. -/
  fullRedraws : Nat
  /-- Pixels of the last answer. -/
  lastFlushPixels : Nat
deriving DecidableEq

structure Damage where
  pending : Box
  full : Bool
  width : Nat
  height : Nat
  config : DamageConfig
  stats : DamageStats
deriving DecidableEq

namespace Damage

def new (width height : Nat) (config : DamageConfig) : Damage :=
  ⟨Box.empty, config.startFull, width, height, config, ⟨0, 0, 0, 0⟩⟩

def bounds (d : Damage) : Box := Box.ofSize 0 0 d.width d.height

/-- Adds a damaged box. Once everything is to be shown, boxes are only counted. -/
def add (d : Damage) (b : Box) : Damage :=
  if b.isEmpty then d
  else
    { d with
      stats := { d.stats with boxesAdded := d.stats.boxesAdded + 1 }
      pending := if d.full then d.pending else d.pending.union b }

def markFull (d : Damage) : Damage := { d with full := true, pending := Box.empty }

def hasDamage (d : Damage) : Bool := d.full || !(d.pending.intersect d.bounds).isEmpty

/-- Follows the screen to a new size, all of which has to be shown. -/
def resize (d : Damage) (width height : Nat) : Noted Damage :=
  ⟨({ d with width, height } : Damage).markFull, [.screenResized d.width d.height width height]⟩

def redraw (d : Damage) : Redraw :=
  let part := d.pending.intersect d.bounds
  if d.full ||
      (!part.isEmpty && d.bounds.area * d.config.fullRedrawPercent ≤ part.area * 100) then .full
  else if part.isEmpty then .nothing
  else .rect part

/-- The number of pixels that an answer shows on a screen. -/
def pixels (d : Damage) : Redraw → Nat
  | .nothing => 0
  | .full => d.bounds.area
  | .rect b => b.area

/-- Answers what has to be shown and starts over. -/
def take (d : Damage) : Redraw × Damage :=
  let redraw := d.redraw
  (redraw,
    { d with
      pending := Box.empty
      full := false
      stats :=
        { d.stats with
          flushes := d.stats.flushes + 1
          fullRedraws := d.stats.fullRedraws + if redraw = .full then 1 else 0
          lastFlushPixels := d.pixels redraw } })

def flushNotes (d : Damage) : Redraw → List Note
  | .nothing => []
  | .full => [.flushingScreen d.width d.height]
  | .rect b => [.flushingBox b]

def flush (d : Damage) : Noted (Redraw × Damage) := ⟨d.take, d.flushNotes d.redraw⟩

end Damage

end Scanline

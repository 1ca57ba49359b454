import Std.Data.HashMap
import Scanline.Format.Standard
import Scanline.Note
/-! The table of known formats. The tag of a format is its place in the table and never changes;
names are found through an index. Only sound layouts are admitted: one to four channels with bits
of their own inside the depth, and no gray beside color. -/

namespace Scanline

/-- The most formats that tags can tell apart. -/
def maxFormats : Nat := 65536

structure Registry where
  formats : Array Format
  index : Std.HashMap String Nat

namespace Registry

def size (r : Registry) : Nat := r.formats.size

def get? (r : Registry) (tag : Nat) : Option Format := r.formats[tag]?

def format (r : Registry) (tag : Nat) : Except ConfigError Format :=
  match r.get? tag with
  | some f => .ok f
  | none => .error (.unknownPixelType tag)

def find? (r : Registry) (name : String) : Option Nat := r.index[name]?

def push (r : Registry) (f : Format) : Registry :=
  ⟨r.formats.push f, r.index.insert f.name f.tag⟩

def standard : Registry := Format.standard.foldl push ⟨#[], ∅⟩

/-- Goes through the channels with the bits used so far; `none` if a channel has no bits, leaves
the depth or meets a bit in use. -/
def usedBits (depth : Depth) : Pixel → List Channel → Option Pixel
  | used, [] => some used
  | used, c :: rest =>
    if c.size = 0 ∨ c.offset + c.size > depth.bits then none
    else
      let bits := Channel.lowBits c.size <<< c.offset.toUInt32
      if used &&& bits ≠ 0 then none else usedBits depth (used ||| bits) rest

/-- Whether gray stands beside a color part. -/
def mixesGray (channels : List Channel) : Bool :=
  channels.any (fun c => c.kind == .value) && channels.any (fun c => c.kind.isColor)

def soundLayout (depth : Depth) (channels : List Channel) : Bool :=
  !channels.isEmpty && channels.length ≤ maxChannels && (usedBits depth 0 channels).isSome &&
    !mixesGray channels

/-- The format that a new name would get. -/
def newFormat (r : Registry) (name : String) (depth : Depth) (channels : List Channel) :
    Except ConfigError Format :=
  if (r.find? name).isSome then .error (.duplicateFormat name)
  else if !soundLayout depth channels then .error (.invalidChannel name)
  else if r.size ≥ maxFormats then .error (.invalidChannel name)
  else .ok (Format.ofChannels r.size name depth channels)

/-- Admits a new format. The answer is its tag and the longer registry. -/
def register (r : Registry) (name : String) (depth : Depth) (channels : List Channel) :
    Attempt (Nat × Registry) :=
  match r.newFormat name depth channels with
  | .error e => .fail (.config e)
  | .ok f => ⟨.ok (f.tag, r.push f), [.registered name f.tag depth.bits]⟩

/-- Admits formats one after the other up to the first that is refused. The answer is the registry
so far and the error that ended it. -/
def registerAll (r : Registry) (wanted : List (String × Depth × List Channel)) :
    Noted (Registry × Option ConfigError) := go r [] wanted
where
  /-- The notes so far stand in reverse. -/
  go (r : Registry) (notes : List Note) :
      List (String × Depth × List Channel) → Noted (Registry × Option ConfigError)
    | [] => ⟨(r, none), notes.reverse⟩
    | (name, depth, channels) :: rest =>
      match r.newFormat name depth channels with
      | .error e => ⟨(r, some e), notes.reverse⟩
      | .ok f => go (r.push f) (.registered name f.tag depth.bits :: notes) rest

theorem size_standard : standard.size = 9 := rfl

@[simp] theorem size_push (r : Registry) (f : Format) : (r.push f).size = r.size + 1 := by
  simp [push, size]

end Registry

end Scanline

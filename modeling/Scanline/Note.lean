import Scanline.Frame
/-! Notes that operations leave for a log, and results that carry them. A note is a value; its
text is made only when somebody reads it. An attempt may fail and still leave notes. -/

namespace Scanline

inductive Severity where
  | warn | debug | trace
deriving DecidableEq

namespace Severity

def name : Severity → String
  | warn => "warn"
  | debug => "debug"
  | trace => "trace"

end Severity

inductive Note where
  | registered (name : String) (tag bits : Nat)
  /-- A pixmap was asked to take a new size. -/
  | resizing (old : Frame) (width height : Nat)
  /-- Nothing of a clipped copy was left. -/
  | blitClippedAway (x0 y0 x1 y1 x2 y2 : Int)
  /-- A block was copied from one buffer into another. -/
  | blitting (w h sx sy : Int) (src : Frame) (dx dy : Int) (dst : Frame)
  | screenResized (oldWidth oldHeight width height : Nat)
  | flushingScreen (width height : Nat)
  | flushingBox (b : Box)
  | violation (kind target detail : String)
  | checkViolated (target : String)
deriving DecidableEq

namespace Note

def severity : Note → Severity
  | registered .. | resizing .. | blitting .. => .debug
  | screenResized .. | flushingScreen .. | flushingBox .. => .debug
  | blitClippedAway .. => .trace
  | violation .. | checkViolated .. => .warn

def message : Note → String
  | registered name tag bits =>
    s!"Registered pixel format {name} as PixelType({tag}) ({bits} bpp)"
  | resizing old width height =>
    s!"Resizing {old.format.name} pixmap {old.width}x{old.height} -> {width}x{height}"
  | blitClippedAway x0 y0 x1 y1 x2 y2 =>
    s!"Blit ({x0}, {y0})-({x1}, {y1}) to ({x2}, {y2}) clipped away"
  | blitting w h sx sy src dx dy dst =>
    s!"Blitting {w}x{h} from ({sx}, {sy}) in {src.fieldText} to ({dx}, {dy}) in {dst.fieldText}"
  | screenResized oldWidth oldHeight width height =>
    s!"Damage area resized {oldWidth}x{oldHeight} -> {width}x{height}"
  | flushingScreen width height => s!"Flushing full {width}x{height} screen"
  | flushingBox b => s!"Flushing {b.geometry}"
  | violation kind target detail => s!"{kind} violation in {target}: {detail}"
  | checkViolated target => s!"{target} violated a check"

end Note

/-- A value with the notes that were left on the way to it. -/
structure Noted (α : Type) where
  value : α
  notes : List Note

namespace Noted

variable {α β : Type}

instance : Monad Noted where
  pure a := ⟨a, []⟩
  bind x f := ⟨(f x.value).value, x.notes ++ (f x.value).notes⟩

@[simp] theorem value_pure (a : α) : (pure a : Noted α).value = a := rfl

@[simp] theorem value_bind (x : Noted α) (f : α → Noted β) :
    (x >>= f).value = (f x.value).value := rfl

end Noted

/-- A result or a failure, with the notes left before it. -/
structure Attempt (α : Type) where
  result : Except Failure α
  notes : List Note

namespace Attempt

variable {α β : Type}

def ok (a : α) : Attempt α := ⟨.ok a, []⟩

def fail (e : Failure) : Attempt α := ⟨.error e, []⟩

def lift (r : Except Failure α) : Attempt α := ⟨r, []⟩

def note (n : Note) : Attempt Unit := ⟨.ok (), [n]⟩

def bind (x : Attempt α) (f : α → Attempt β) : Attempt β :=
  match x.result with
  | .error e => ⟨.error e, x.notes⟩
  | .ok a => let y := f a; ⟨y.result, x.notes ++ y.notes⟩

instance : Monad Attempt where
  pure := ok
  bind := bind

instance : MonadLift (Except Failure) Attempt where
  monadLift := lift

@[simp] theorem result_pure (a : α) : (pure a : Attempt α).result = .ok a := rfl

@[simp] theorem result_lift (r : Except Failure α) : (lift r).result = r := rfl

@[simp] theorem result_bind (x : Attempt α) (f : α → Attempt β) :
    (x >>= f).result = x.result >>= fun a => (f a).result := by
  rcases x with ⟨_ | _, _⟩ <;> rfl

/-- Repeats a step a number of times and stops at the first failure. -/
def iterate (step : α → Attempt α) (n : Nat) (a : α) : Attempt α := go n a []
where
  /-- The notes so far stand in reverse. -/
  go : Nat → α → List Note → Attempt α
    | 0, a, notes => ⟨.ok a, notes.reverse⟩
    | n + 1, a, notes =>
      let x := step a
      match x.result with
      | .ok a => go n a (x.notes.reverse ++ notes)
      | .error e => ⟨.error e, (x.notes.reverse ++ notes).reverse⟩

end Attempt

end Scanline

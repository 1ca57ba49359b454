/-! What a trial of one input says: the checks hold, the input is of no use, it reaches a rare
case, or it breaks a check. -/

namespace Scanline.Fuzz

inductive ViolationKind where
  /-- A pixel changed that should not. -/
  | outOfBounds
  /-- A pixel has another value than expected. -/
  | wrongValue
  /-- The answered box is not the expected one. -/
  | wrongBox
  /-- A law of boxes does not hold. -/
  | boxAlgebra
  /-- Bytes between rows changed. -/
  | paddingWritten
deriving DecidableEq

namespace ViolationKind

def name : ViolationKind → String
  | outOfBounds => "out-of-bounds"
  | wrongValue => "wrong-value"
  | wrongBox => "wrong-box"
  | boxAlgebra => "box-algebra"
  | paddingWritten => "padding-written"

end ViolationKind

structure Violation where
  kind : ViolationKind
  detail : String
deriving DecidableEq

inductive Verdict where
  | passed
  /-- The input is too short to be tried. -/
  | rejected
  /-- All checks hold and the input is worth keeping. -/
  | interesting (reason : String)
  | violated (v : Violation)
deriving DecidableEq

namespace Verdict

def isViolation : Verdict → Bool
  | violated _ => true
  | _ => false

/-- Whether the input is worth a closer look; one that breaks a check is. -/
def isInteresting : Verdict → Bool
  | interesting _ | violated _ => true
  | _ => false

def violation? : Verdict → Option Violation
  | violated v => some v
  | _ => none

end Verdict

end Scanline.Fuzz

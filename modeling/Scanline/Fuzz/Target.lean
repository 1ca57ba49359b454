import Scanline.Fuzz.Input
import Scanline.Fuzz.Verdict
import Scanline.Note
/-! Targets judge inputs. A target may keep a state from one input to the next, and is told to
reset it between inputs. -/

namespace Scanline.Fuzz

structure Target (σ : Type) where
  /-- The name, which may change with the state. -/
  nameIn : σ → String
  fuzz : Input → σ → Attempt (Verdict × σ)
  reset : σ → σ

namespace Target

variable {σ : Type}

/-- The name of a target that nothing was asked of. -/
def name [Inhabited σ] (t : Target σ) : String := t.nameIn default

/-- A target that judges each input for itself. -/
def ofJudge (name : String) (judge : Input → Attempt Verdict) : Target σ :=
  ⟨fun _ => name, fun input s => do return (← judge input, s), id⟩

/-- Judges inputs one after the other, with a reset after each. -/
def fuzzAll (t : Target σ) : List Input → σ → Attempt (List Verdict × σ)
  | [], s => return ([], s)
  | input :: rest, s => do
    let (v, s) ← t.fuzz input s
    let (vs, s) ← t.fuzzAll rest (t.reset s)
    return (v :: vs, s)

end Target

end Scanline.Fuzz

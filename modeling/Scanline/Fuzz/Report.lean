import Scanline.Fuzz.Input
import Scanline.Fuzz.Verdict
/-! What a campaign has found so far, and its text. -/

namespace Scanline.Fuzz

structure Stats where
  iterations : Nat
  /-- Inputs given to targets. -/
  executions : Nat
  rejected : Nat
  violations : Nat
  /-- Violations of another target or kind than all before. -/
  unique : Nat
  corpusSize : Nat
deriving DecidableEq

namespace Stats

def zero : Stats := ⟨0, 0, 0, 0, 0, 0⟩

def text (s : Stats) : String :=
  s!"Statistics:\n  Iterations: {s.iterations}\n  Executions: {s.executions}\n" ++
    s!"  Rejected: {s.rejected}\n  Violations: {s.violations} ({s.unique} unique)\n" ++
    s!"  Corpus: {s.corpusSize}\n"

end Stats

/-- The first input that made a target break a check of one kind. -/
structure Finding where
  input : Input
  violation : Violation
  target : String
deriving DecidableEq

namespace Finding

def text (f : Finding) : String :=
  s!"  - {f.violation.kind.name} in {f.target}: {f.violation.detail} " ++
    s!"({f.input.length} byte input)\n"

end Finding

structure Report where
  stats : Stats
  findings : List Finding
deriving DecidableEq

namespace Report

def isClean (r : Report) : Bool := r.findings.isEmpty

def text (r : Report) : String :=
  let findings :=
    if r.isClean then "" else "\nFindings:\n" ++ String.join (r.findings.map Finding.text)
  "=== Fuzzing Report ===\n\n" ++ r.stats.text ++ findings

end Report

end Scanline.Fuzz

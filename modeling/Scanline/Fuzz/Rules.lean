import Scanline.Fuzz.Target
/-! Targets given by rules, which remember what was asked of them: the first rule whose condition
holds decides, and an input that no rule decides passes. -/

namespace Scanline.Fuzz

inductive Condition where
  | startsWith (bytes : Input)
  | contains (bytes : Input)
  | shorterThan (n : Nat)
  | longerThan (n : Nat)
  | always
deriving DecidableEq

namespace Condition

/-- Whether bytes occur somewhere in an input. -/
def occurs (bytes : Input) : Input → Bool
  | [] => bytes.isEmpty
  | b :: rest => bytes.isPrefixOf (b :: rest) || occurs bytes rest

def holds (input : Input) : Condition → Bool
  | startsWith bytes => bytes.isPrefixOf input
  | contains bytes => occurs bytes input
  | shorterThan n => input.length < n
  | longerThan n => n < input.length
  | always => true

end Condition

structure Rule where
  condition : Condition
  verdict : Verdict
deriving DecidableEq

namespace Rule

/-- The verdict of the first rule that applies. -/
def judge (rules : List Rule) (input : Input) : Verdict :=
  match rules.find? fun r => r.condition.holds input with
  | some r => r.verdict
  | none => .passed

end Rule

structure Seen where
  calls : Nat
  resets : Nat
  /-- The inputs of the first calls. -/
  first : List Input
  last : Option Input
deriving DecidableEq

namespace Seen

def nothing : Seen := ⟨0, 0, [], none⟩

instance : Inhabited Seen := ⟨nothing⟩

def kept : Nat := 24

def call (s : Seen) (input : Input) : Seen :=
  { s with
    calls := s.calls + 1
    first := if s.first.length < kept then s.first ++ [input] else s.first
    last := some input }

def reset (s : Seen) : Seen := { s with resets := s.resets + 1 }

end Seen

namespace Target

def ofRules (name : String) (rules : List Rule) : Target Seen :=
  ⟨fun _ => name, fun input s => return (Rule.judge rules input, s.call input), Seen.reset⟩

end Target

end Scanline.Fuzz

import Scanline.Fuzz.Mutator
import Scanline.Fuzz.Target
/-! Smoke runs: one target, a fixed seed, and only the question whether any input breaks a
check. -/

namespace Scanline.Fuzz

structure Smoke (σ : Type) where
  target : Target σ
  state : σ
  mutator : Mutator
  corpus : Array Input
  violated : Bool

namespace Smoke

variable {σ : Type}

def seed : UInt64 := 42

/-- The most inputs that the corpus grows to. -/
def capacity : Nat := 256

def new (target : Target σ) (state : σ) (corpus : List Input) : Smoke σ :=
  ⟨target, state, Mutator.new seed, corpus.toArray, false⟩

/-- The input of the next round. Nothing is drawn from an empty corpus. -/
def nextInput (s : Smoke σ) : Except Failure (Input × Mutator) :=
  if s.corpus.isEmpty then s.mutator.mutate []
  else do
    let (i, mutator) ← s.mutator.next
    mutator.mutate (s.corpus.getD (i.toNat % s.corpus.size) [])

def step (s : Smoke σ) : Attempt (Smoke σ) := do
  let (input, mutator) ← s.nextInput
  let (verdict, state) ← s.target.fuzz input s.state
  let s := { s with mutator, state := s.target.reset state }
  if verdict.isViolation then
    Attempt.note (.checkViolated (s.target.nameIn state))
    return { s with violated := true }
  else if verdict.isInteresting && s.corpus.size < capacity then
    return { s with corpus := s.corpus.push input }
  else return s

def run (s : Smoke σ) (n : Nat) : Attempt (Smoke σ) := Attempt.iterate step n s

end Smoke

end Scanline.Fuzz

import Scanline.Fuzz.Corpus
import Scanline.Fuzz.Mutator
import Scanline.Fuzz.Report
import Scanline.Fuzz.Target
/-! Campaigns: rounds of mutated inputs against several targets. Each round takes an entry of the
corpus, mutates it and shows it to every target. Of the inputs that break a check the first of each
target and kind is kept; inputs that reach a rare case join the corpus. -/

namespace Scanline.Fuzz

structure CampaignConfig where
  /-- Inputs are cut to this many bytes. -/
  maxInput : Nat
  iterations : Nat
  seed : UInt64
deriving DecidableEq

namespace CampaignConfig

def default : CampaignConfig := ⟨256, 10000, 12345⟩

end CampaignConfig

structure Campaign (σ : Type) where
  config : CampaignConfig
  /-- The targets with the states that they keep. -/
  targets : List (Target σ × σ)
  mutator : Mutator
  corpus : Corpus
  stats : Stats
  findings : List Finding

namespace Campaign

variable {σ : Type}

def corpusCapacity : Nat := 1024

def new (config : CampaignConfig) : Campaign σ :=
  ⟨config, [], Mutator.new config.seed, Corpus.empty corpusCapacity, Stats.zero, []⟩

def addTarget (c : Campaign σ) (t : Target σ) (s : σ) : Campaign σ :=
  { c with targets := c.targets ++ [(t, s)] }

def addEntries (c : Campaign σ) (entries : List Input) : Campaign σ :=
  { c with mutator := entries.foldl Mutator.addEntry c.mutator }

def keep (c : Campaign σ) (input : Input) : Campaign σ :=
  let corpus := c.corpus.add input
  { c with corpus, stats := { c.stats with corpusSize := corpus.size } }

def nextInput (c : Campaign σ) : Except Failure (Input × Mutator) := do
  let (i, mutator) ← c.mutator.next
  let (input, mutator) ← mutator.mutate ((c.corpus.entry? i).getD [])
  return (input.take c.config.maxInput, mutator)

/-- Shows an input to every target and resets each. The verdicts come with the names that the targets
have then. -/
def judgeAll (input : Input) :
    List (Target σ × σ) → Attempt (List (String × Verdict) × List (Target σ × σ))
  | [] => return ([], [])
  | (t, s) :: rest => do
    let (v, s) ← t.fuzz input s
    let (vs, rest) ← judgeAll input rest
    return ((t.nameIn s, v) :: vs, (t, t.reset s) :: rest)

/-- Whether a violation of this target and kind was found before. -/
def isKnown (c : Campaign σ) (target : String) (kind : ViolationKind) : Bool :=
  c.findings.any fun f => f.target == target && f.violation.kind == kind

/-- Counts a violation, and keeps it if it is the first of its target and kind. -/
def record (c : Campaign σ) (input : Input) (target : String) (v : Violation) : Campaign σ :=
  let stats := { c.stats with violations := c.stats.violations + 1 }
  if c.isKnown target v.kind then { c with stats }
  else
    { c with
      stats := { stats with unique := stats.unique + 1 }
      findings := c.findings ++ [⟨input, v, target⟩] }

def enter (c : Campaign σ) (input : Input) (target : String) : Verdict → Attempt (Campaign σ)
  | .violated v => do
    Attempt.note (.violation v.kind.name target v.detail)
    return c.record input target v
  | .rejected => return { c with stats := { c.stats with rejected := c.stats.rejected + 1 } }
  | .passed | .interesting _ => return c

/-- Whether some verdict asks to keep the input; a violation alone does not. -/
def worthKeeping (verdicts : List (String × Verdict)) : Bool :=
  verdicts.any fun v => v.2.isInteresting && !v.2.isViolation

/-- The first half of a round: the next input and what the targets say to it. -/
def trial (c : Campaign σ) : Attempt ((Input × List (String × Verdict)) × Campaign σ) := do
  let (input, mutator) ← c.nextInput
  let (verdicts, targets) ← judgeAll input c.targets
  let stats :=
    { c.stats with
      iterations := c.stats.iterations + 1
      executions := c.stats.executions + verdicts.length }
  return ((input, verdicts), { c with targets, mutator, stats })

/-- The second half of a round: what follows from the verdicts. -/
def absorb (c : Campaign σ) (input : Input) (verdicts : List (String × Verdict)) :
    Attempt (Campaign σ) := do
  let c ← verdicts.foldlM (fun c v => c.enter input v.1 v.2) c
  return if worthKeeping verdicts then c.keep input else c

def step (c : Campaign σ) : Attempt (Campaign σ) := do
  let ((input, verdicts), c) ← c.trial
  c.absorb input verdicts

def run (c : Campaign σ) (n : Nat) : Attempt (Campaign σ) := Attempt.iterate step n c

def runConfigured (c : Campaign σ) : Attempt (Campaign σ) := c.run c.config.iterations

def report (c : Campaign σ) : Report := ⟨c.stats, c.findings⟩

end Campaign

end Scanline.Fuzz

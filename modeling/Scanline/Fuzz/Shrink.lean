import Scanline.Fuzz.Target
/-! Shrinking an input that breaks a check. A round takes away the first chunk that is not needed,
long chunks first, and then sets to zero every byte whose value is not needed. Each round that
changes the input makes it shorter, or leaves its length and makes fewer of its bytes other than
zero; so the rounds come to an end, and a limit on the attempts only ends them sooner. -/

namespace Scanline.Fuzz

/-- A target in use, and how often it was asked. -/
structure Probing (σ : Type) where
  state : σ
  attempts : Nat

abbrev Probe (σ : Type) := StateT (Probing σ) Attempt

namespace Input

/-- How many bytes are not zero. -/
def weight (input : Input) : Nat := input.countP (· != 0)

/-- Shorter, or as long with fewer bytes other than zero. -/
def Smaller (a b : Input) : Prop :=
  a.length < b.length ∨ a.length = b.length ∧ a.weight < b.weight

/-- The input without the bytes of a chunk. -/
def without (input : Input) (start size : Nat) : Input :=
  input.take start ++ input.drop (start + size)

/-- The places of all chunks of a size, as far as the input reaches. -/
def chunks (size length : Nat) : List (Nat × Nat) :=
  (List.range ((length + size - 1) / size)).map fun k => (k * size, size)

def chunkSizes : List Nat := [32, 16, 8, 4, 2, 1]

theorem Smaller.trans {a b c : Input} (h : Smaller a b) (h' : Smaller b c) : Smaller a c := by
  unfold Smaller at *
  omega

theorem length_without (input : Input) (start size : Nat) :
    (input.without start size).length =
      min start input.length + (input.length - (start + size)) := by
  simp [without]

theorem weight_set_zero {input : Input} {i : Nat} (h : input.set i 0 ≠ input) :
    weight (input.set i 0) < weight input := by
  induction input generalizing i with
  | nil => exact absurd rfl h
  | cons b rest ih =>
    cases i with
    | zero =>
      have hb : b ≠ 0 := by
        rintro rfl
        exact h rfl
      simp [weight, hb]
    | succ i =>
      have := @ih i fun e => h (by rw [List.set_cons_succ, e])
      simp only [weight, List.set_cons_succ, List.countP_cons] at *
      omega

theorem smaller_set_zero {input : Input} {i : Nat} (h : input.set i 0 ≠ input) :
    Smaller (input.set i 0) input := .inr ⟨List.length_set, weight_set_zero h⟩

end Input

/-- What an input may become: itself or something smaller. -/
structure Reduct (input : Input) where
  value : Input
  reduced : value = input ∨ value.Smaller input

namespace Reduct

variable {input : Input}

def self (input : Input) : Reduct input := ⟨input, .inl rfl⟩

/-- Something smaller than a reduct is a reduct. -/
def lower (r : Reduct input) (a : Input) (h : a.Smaller r.value) : Reduct input :=
  ⟨a, .inr (r.reduced.elim (fun e => e ▸ h) h.trans)⟩

end Reduct

namespace Target

variable {σ : Type}

/-- After this many attempts no new round starts. -/
def maxAttempts : Nat := 10000

/-- Whether the target, freshly reset, finds a violation. -/
def stillFails (t : Target σ) (input : Input) : Probe σ Bool := fun p => do
  let (v, state) ← t.fuzz input (t.reset p.state)
  return (v.isViolation, ⟨state, p.attempts + 1⟩)

/-- The input without the first of some chunks that is not needed, or else the input. -/
def cut (t : Target σ) (input : Input) : List (Nat × Nat) → Probe σ (Reduct input)
  | [] => return Reduct.self input
  | (start, size) :: rest => do
    let candidate := input.without start size
    if h : candidate.length < input.length then
      if ← t.stillFails candidate then return (Reduct.self input).lower candidate (.inl h)
    t.cut input rest

/-- Sets to zero, one after the other, the bytes at some places that are not needed. -/
def blank (t : Target σ) {input : Input} : List Nat → Reduct input → Probe σ (Reduct input)
  | [], r => return r
  | i :: rest, r => do
    let candidate := r.value.set i 0
    if h : candidate = r.value then t.blank rest r
    else if ← t.stillFails candidate then
      t.blank rest (r.lower candidate (Input.smaller_set_zero h))
    else t.blank rest r

def shrinkOnce (t : Target σ) (input : Input) : Probe σ (Reduct input) := do
  let r ← t.cut input (Input.chunkSizes.flatMap (Input.chunks · input.length))
  t.blank (List.range r.value.length) r

/-- Rounds until one changes nothing or the attempts are used up. -/
def shrink (t : Target σ) (input : Input) : Probe σ Input := do
  if maxAttempts ≤ (← get).attempts then return input
  let r ← t.shrinkOnce input
  if r.value = input then return input else t.shrink r.value
termination_by (input.length, input.weight)
decreasing_by
  rcases r.reduced.resolve_left ‹_› with h | h
  · exact Prod.Lex.left _ _ h
  · rw [h.1]
    exact Prod.Lex.right _ h.2

/-- Shrinks an input, with the state that the target ends in. -/
def minimize (t : Target σ) (input : Input) (s : σ) : Attempt (Input × Probing σ) :=
  (t.shrink input).run ⟨s, 0⟩

end Target

end Scanline.Fuzz

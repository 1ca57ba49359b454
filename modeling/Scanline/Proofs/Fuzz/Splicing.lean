import Mathlib.Data.List.Chain
import Scanline.Proofs.Fuzz.Mutation
import Scanline.Proofs.Results
/-! Mutations one after the other. However many there are, none of them faults, and each changes
the length of its input by little: it takes away at most sixteen bytes, and it adds at most sixteen
or what the longest entry of the dictionary has. A splice is what writing an entry byte by byte over
the input gives; before and after the entry the bytes stay. -/

namespace Scanline.Fuzz

namespace Input

variable {input entry : Input} {i : Nat}

/-- Writes a byte over the one at a place, or behind the last one. -/
def put (input : Input) (i : Nat) (b : UInt8) : Input :=
  if i < input.length then input.set i b else input ++ [b]

/-- Writes bytes at one place after the other. -/
def putAll (input : Input) : Nat → List UInt8 → Input
  | _, [] => input
  | i, b :: entry => (input.put i b).putAll (i + 1) entry

theorem put_eq (h : i ≤ input.length) (b : UInt8) :
    input.put i b = input.take i ++ b :: input.drop (i + 1) := by
  unfold put
  split
  · rename_i hlt
    rw [List.set_eq_take_append_cons_drop, if_pos hlt]
  · rename_i hge
    rw [List.take_of_length_le (by omega), List.drop_of_length_le (by omega)]

/-- Writing an entry byte by byte splices it in. -/
theorem putAll_eq_splice (h : i ≤ input.length) : input.putAll i entry = input.splice i entry := by
  induction entry generalizing input i with
  | nil =>
    rw [putAll, splice, List.append_nil, List.length_nil, Nat.add_zero, List.take_append_drop]
  | cons b entry ih =>
    have hput := put_eq h b
    have htake : (input.take i).length = i := List.length_take_of_le h
    have hle : i + 1 ≤ (input.put i b).length := by
      rw [hput, List.length_append, htake, List.length_cons]
      omega
    have hbefore : (input.put i b).take (i + 1) = input.take i ++ [b] := by
      rw [hput, List.append_cons, List.take_left' (by rw [List.length_append, htake]; rfl)]
    have hafter : (input.put i b).drop (i + 1 + entry.length) =
        input.drop (i + (entry.length + 1)) := by
      rw [hput, List.append_cons, ← List.drop_drop,
        List.drop_left' (by rw [List.length_append, htake]; rfl), List.drop_drop]
      congr 1
      omega
    rw [putAll, ih hle, splice, splice, hbefore, hafter, List.length_cons,
      List.append_cons (List.take i input) b entry]

/-- An entry stands at a place, and the bytes before and after it are those of an input. -/
structure Spliced (input : Input) (i : Nat) (entry out : Input) : Prop where
  before : out.take i = input.take i
  within : (out.drop i).take entry.length = entry
  after : out.drop (i + entry.length) = input.drop (i + entry.length)

theorem spliced_splice (h : i ≤ input.length) : Spliced input i entry (input.splice i entry) := by
  have htake : (input.take i).length = i := List.length_take_of_le h
  have hdrop : (input.splice i entry).drop i = entry ++ input.drop (i + entry.length) := by
    rw [splice, List.append_assoc, List.drop_left' htake]
  refine ⟨?_, ?_, ?_⟩
  · rw [splice, List.append_assoc, List.take_left' htake]
  · rw [hdrop, List.take_left' rfl]
  · rw [← List.drop_drop, hdrop, List.drop_left' rfl]

example : Input.splice [1, 2, 3, 4] 3 [0x7f, 0x80] = [1, 2, 3, 0x7f, 0x80] := by decide

end Input

/-- The length of the longest entry, or zero. -/
def longest (dictionary : List Input) : Nat := (dictionary.map List.length).max?.getD 0

theorem length_le_longest {dictionary : List Input} {entry : Input} (h : entry ∈ dictionary) :
    entry.length ≤ longest dictionary :=
  List.le_max?_getD_of_mem (List.mem_map_of_mem h)

section Draws
open Draw

variable {dictionary : List Input} {input : Input}

/-- Some entry of the dictionary is written over the input from a place inside it on, or from the
start of an empty one. -/
def SplicedFrom (dictionary : List Input) (input out : Input) : Prop :=
  ∃ entry ∈ dictionary, ∃ i, (i < input.length ∨ input = [] ∧ i = 0) ∧
    out = input.putAll i entry ∧ input.Spliced i entry out

theorem splicedFrom_splice {entry : Input} {i : Nat} (hentry : entry ∈ dictionary)
    (hi : i < input.length ∨ input = [] ∧ i = 0) :
    SplicedFrom dictionary input (input.splice i entry) := by
  have hle : i ≤ input.length := by
    rcases hi with hlt | ⟨-, rfl⟩
    · exact Nat.le_of_lt hlt
    · exact Nat.zero_le _
  exact ⟨entry, hentry, i, hi, (Input.putAll_eq_splice hle).symm, Input.spliced_splice hle⟩

theorem gives_splicedFrom (hdictionary : dictionary ≠ []) (input : Input) :
    Gives (spliceEntry dictionary input) (SplicedFrom dictionary input) := by
  unfold spliceEntry
  rw [if_neg (by rwa [List.isEmpty_iff])]
  refine .bind (gives_choose hdictionary) fun entry hentry => ?_
  dsimp only
  split
  · rename_i hempty
    exact .pure (splicedFrom_splice hentry (.inr ⟨List.isEmpty_iff.mp hempty, rfl⟩))
  · rename_i hne
    rw [List.isEmpty_iff] at hne
    exact .bind (gives_pick (List.length_pos_iff.mpr hne)) fun i hi =>
      .pure (splicedFrom_splice hentry (.inl hi))

end Draws

namespace Mutator

/-- What the next mutation is, by number. -/
def choice (m : Mutator) : Nat := (Draw.advance m.seed >>> 16).toNat % 9

/-- The next mutation splices in an entry of the dictionary. -/
def Splices (m : Mutator) : Prop := m.choice = 6

/-- What one mutation makes of an input. -/
structure Mutated (m : Mutator) (input : Input) (m' : Mutator) (out : Input) : Prop where
  dictionary_eq : m'.dictionary = m.dictionary
  shrunk_le : input.length ≤ out.length + 16
  grown_le : out.length ≤ input.length + max 16 (longest m.dictionary)
  spliced : m.Splices → m.dictionary ≠ [] → SplicedFrom m.dictionary input out
  unspliced : m.Splices → m.dictionary = [] → out = input

theorem run_mutation_of_splices {m : Mutator} (h : m.Splices) (input : Input) :
    (mutation m.dictionary input).run m.seed =
      (Draw.spliceEntry m.dictionary input).run (Draw.advance m.seed) := by
  have hpick : (Draw.pick 9).run m.seed = .ok (6, Draw.advance m.seed) :=
    congrArg (fun k => Except.ok (k, Draw.advance m.seed)) h
  rw [mutation, StateT.run_bind, hpick]
  rfl

theorem exists_mutated (m : Mutator) (input : Input) :
    ∃ out m', m.mutate input = .ok (out, m') ∧ m.Mutated input m' out := by
  obtain ⟨out, seed, hok, hgrown⟩ := gives_mutation m.dictionary input m.seed
  refine ⟨out, { m with seed }, by rw [mutate, run, hok]; rfl, rfl, hgrown.shrunk_le, ?_, ?_, ?_⟩
  · refine hgrown.grown_le _ (Nat.le_max_left _ _) fun entry hentry => ?_
    exact Nat.le_trans (length_le_longest hentry) (Nat.le_max_right _ _)
  · intro hsplices hdictionary
    obtain ⟨out', seed', hok', hspliced⟩ :=
      gives_splicedFrom hdictionary input (Draw.advance m.seed)
    rw [run_mutation_of_splices hsplices, hok'] at hok
    exact (Prod.mk.inj (Except.ok.inj hok)).1 ▸ hspliced
  · intro hsplices hdictionary
    rw [run_mutation_of_splices hsplices, hdictionary] at hok
    exact (Prod.mk.inj (Except.ok.inj hok)).1.symm

/-- A number of mutations, with the mutator and the input after each. -/
def mutations (m : Mutator) (input : Input) : Nat → Except Failure (List (Mutator × Input))
  | 0 => return []
  | n + 1 => do
    let (out, m') ← m.mutate input
    return (m', out) :: (← m'.mutations out n)

/-- Any number of mutations succeed, whatever the seed, the dictionary and the input, and each of
them keeps to its bounds. -/
theorem mutations_bounded (m : Mutator) (input : Input) (n : Nat) :
    ∃ trail, m.mutations input n = .ok trail ∧ trail.length = n ∧
      ((m, input) :: trail).IsChain fun a b => a.1.Mutated a.2 b.1 b.2 := by
  induction n generalizing m input with
  | zero => exact ⟨[], rfl, rfl, .singleton _⟩
  | succ n ih =>
    obtain ⟨out, m', hok, hmutated⟩ := m.exists_mutated input
    obtain ⟨trail, hrest, hlength, hchain⟩ := ih m' out
    refine ⟨(m', out) :: trail, ?_, congrArg (· + 1) hlength, .cons_cons hmutated hchain⟩
    rw [mutations, hok, ok_bind]
    dsimp only
    rw [hrest]
    rfl

end Mutator

end Scanline.Fuzz

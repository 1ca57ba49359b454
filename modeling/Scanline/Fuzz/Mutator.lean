import Scanline.Fuzz.Input
/-! Random edits of test inputs. Every choice is drawn from one linear congruential generator, so
that a seed fixes the whole sequence of inputs. Positions are drawn inside the input; a draw from
nothing or an edit outside the input would be a fault. -/

namespace Scanline.Fuzz

/-- A computation that draws from the generator. -/
abbrev Draw := StateT UInt64 (Except Failure)

namespace Draw

/-- The successor of a generator state. -/
def advance (seed : UInt64) : UInt64 := seed * 1103515245 + 12345

/-- The next number. The low bits of the state, which repeat soonest, are left out. -/
def next : Draw UInt64 := modifyGet fun seed => (advance seed >>> 16, advance seed)

def pick (n : Nat) : Draw Nat := do
  let v ← next
  if n = 0 then throw (.fault .zeroDivision) else return v.toNat % n

def choose {α : Type} (xs : List α) : Draw α := do
  match xs[← pick xs.length]? with
  | some x => return x
  | none => throw (.fault .outside)

def byte : Draw UInt8 := return (← next).toUInt8

end Draw

namespace Input

def update (input : Input) (i : Nat) (f : UInt8 → UInt8) : Except Failure Input :=
  if i < input.length then .ok (input.modify i f) else .error (.fault .outside)

/-- Puts a byte before the one at `i`, or at the end. -/
def insert (input : Input) (i : Nat) (b : UInt8) : Except Failure Input :=
  if i ≤ input.length then .ok (input.insertIdx i b) else .error (.fault .outside)

def erase (input : Input) (i : Nat) : Except Failure Input :=
  if i < input.length then .ok (input.eraseIdx i) else .error (.fault .outside)

/-- Writes an entry over the bytes from `i` on, past the end where it is longer. -/
def splice (input : Input) (i : Nat) (entry : Input) : Input :=
  input.take i ++ entry ++ input.drop (i + entry.length)

end Input

inductive Edit where
  | flipBit | flipByte | insertByte | deleteByte | replaceByte
  /-- Puts in a byte at an edge of the signed or unsigned range. -/
  | edgeByte
deriving DecidableEq

namespace Edit

def all : List Edit := [flipBit, flipByte, insertByte, deleteByte, replaceByte, edgeByte]

def edges : List UInt8 := [0, 1, 0x7f, 0x80, 0xff]

/-- The edit of an input that is not empty, at the given place. -/
def applyAt (input : Input) (i : Nat) : Edit → Draw Input
  | flipBit => do
    let bit ← Draw.pick 8
    input.update i (· ^^^ (1 <<< bit.toUInt8))
  | flipByte => input.update i (· ^^^ 0xff)
  | insertByte => do input.insert i (← Draw.byte)
  | deleteByte => input.erase i
  | replaceByte => do
    let b ← Draw.byte
    input.update i fun _ => b
  | edgeByte => do
    let b ← Draw.choose edges
    input.update i fun _ => b

/-- The edit at a random place. An empty input takes only a new byte. -/
def apply (e : Edit) (input : Input) : Draw Input := do
  if input.isEmpty then
    if e = insertByte then e.applyAt input 0 else return input
  else e.applyAt input (← Draw.pick input.length)

def applyMany : Nat → Input → Draw Input
  | 0, input => return input
  | n + 1, input => do
    let e ← Draw.choose all
    applyMany n (← e.apply input)

end Edit

namespace Draw

def bytes : Nat → Draw Input
  | 0 => return []
  | n + 1 => do
    let b ← byte
    return b :: (← bytes n)

/-- Writes a random entry of the dictionary over a random place. -/
def spliceEntry (dictionary : List Input) (input : Input) : Draw Input := do
  if dictionary.isEmpty then return input
  let entry ← choose dictionary
  let i ← if input.isEmpty then pure 0 else pick input.length
  return input.splice i entry

end Draw

structure Mutator where
  seed : UInt64
  dictionary : List Input
deriving DecidableEq

namespace Mutator

def new (seed : UInt64) : Mutator := ⟨seed, []⟩

def addEntry (m : Mutator) (entry : Input) : Mutator :=
  { m with dictionary := m.dictionary ++ [entry] }

def run {α : Type} (m : Mutator) (d : Draw α) : Except Failure (α × Mutator) :=
  (d.run m.seed).map fun (a, seed) => (a, { m with seed })

/-- An edit, a splice, a burst of one to sixteen edits, or one to eight new bytes at the end. -/
def mutation (dictionary : List Input) (input : Input) : Draw Input := do
  match ← Draw.pick 9 with
  | 0 => Edit.flipBit.apply input
  | 1 => Edit.flipByte.apply input
  | 2 => Edit.insertByte.apply input
  | 3 => Edit.deleteByte.apply input
  | 4 => Edit.replaceByte.apply input
  | 5 => Edit.edgeByte.apply input
  | 6 => Draw.spliceEntry dictionary input
  | 7 => Edit.applyMany ((← Draw.pick 16) + 1) input
  | _ => return input ++ (← Draw.bytes ((← Draw.pick 8) + 1))

def next (m : Mutator) : Except Failure (UInt64 × Mutator) := m.run Draw.next

def mutate (m : Mutator) (input : Input) : Except Failure (Input × Mutator) :=
  m.run (mutation m.dictionary input)

end Mutator

end Scanline.Fuzz

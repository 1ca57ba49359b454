import Scanline.Fuzz.Input
/-! The inputs that are mutated further: no input twice, and the oldest leaves when there are too
many. -/

namespace Scanline.Fuzz

structure Corpus where
  capacity : Nat
  /-- The oldest comes first. -/
  entries : List Input
deriving DecidableEq

namespace Corpus

def empty (capacity : Nat) : Corpus := ⟨capacity, []⟩

def size (c : Corpus) : Nat := c.entries.length

def isEmpty (c : Corpus) : Bool := c.entries.isEmpty

/-- Adds an input unless it is there already. A full corpus gives up its oldest input. -/
def add (c : Corpus) (input : Input) : Corpus :=
  if c.capacity = 0 ∨ input ∈ c.entries then c
  else if c.size = c.capacity then { c with entries := c.entries.tail ++ [input] }
  else { c with entries := c.entries ++ [input] }

/-- The entry of a number, counted around. -/
def entry? (c : Corpus) (i : UInt64) : Option Input := c.entries[i.toNat % c.size]?

end Corpus

end Scanline.Fuzz

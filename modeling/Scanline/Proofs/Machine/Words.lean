import Scanline.Proofs.Results
/-! Numbers as a machine keeps them, in words of 32, 64 or 128 bits with or without a sign. A step
answers only with the exact number: what leaves its word is a fault, and so is a number that loses
bits on its way into a narrower word. Every sum, difference, product, quotient and negation of a
computation is one such step. -/

namespace Scanline.Machine

/-- A number in a word that reaches from `lo` to `hi`. -/
def held (lo hi v : Int) : Except Failure Int :=
  if lo ≤ v ∧ v ≤ hi then .ok v else .error (.fault .overflow)

def i32 : Int → Except Failure Int := held (-0x80000000) 0x7fffffff

def u32 : Int → Except Failure Int := held 0 0xffffffff

def i64 : Int → Except Failure Int := held (-0x8000000000000000) 0x7fffffffffffffff

/-- Addresses have this word too. -/
def u64 : Int → Except Failure Int := held 0 0xffffffffffffffff

def i128 : Int → Except Failure Int :=
  held (-0x80000000000000000000000000000000) 0x7fffffffffffffffffffffffffffffff

def u128 : Int → Except Failure Int := held 0 0xffffffffffffffffffffffffffffffff

section Words
variable {v : Int}

theorem i32_eq (h : -0x80000000 ≤ v) (h' : v ≤ 0x7fffffff) : i32 v = .ok v := if_pos ⟨h, h'⟩

theorem u32_eq (h : 0 ≤ v) (h' : v ≤ 0xffffffff) : u32 v = .ok v := if_pos ⟨h, h'⟩

theorem i64_eq (h : -0x8000000000000000 ≤ v) (h' : v ≤ 0x7fffffffffffffff) : i64 v = .ok v :=
  if_pos ⟨h, h'⟩

theorem u64_eq (h : 0 ≤ v) (h' : v ≤ 0xffffffffffffffff) : u64 v = .ok v := if_pos ⟨h, h'⟩

theorem i128_eq (h : -0x80000000000000000000000000000000 ≤ v)
    (h' : v ≤ 0x7fffffffffffffffffffffffffffffff) : i128 v = .ok v := if_pos ⟨h, h'⟩

theorem u128_eq (h : 0 ≤ v) (h' : v ≤ 0xffffffffffffffffffffffffffffffff) : u128 v = .ok v :=
  if_pos ⟨h, h'⟩

/-- How far a product reaches. -/
theorem mul_bounds {a b : Int} {m n : Nat} (ha : -m ≤ a ∧ a ≤ m) (hb : -n ≤ b ∧ b ≤ n) :
    -(m * n : Nat) ≤ a * b ∧ a * b ≤ (m * n : Nat) := by
  have h : (a * b).natAbs ≤ m * n := by
    rw [Int.natAbs_mul]
    exact Nat.mul_le_mul (by omega) (by omega)
  omega

end Words

section Gather
variable {α β : Type}

/-- What a step makes of each of some values, one after the other. -/
def gather (f : α → Except Failure (List β)) : List α → Except Failure (List β)
  | [] => return []
  | a :: as => return (← f a) ++ (← gather f as)

theorem gather_eq {f : α → Except Failure (List β)} {g : α → List β} {as : List α}
    (h : ∀ a ∈ as, f a = .ok (g a)) : gather f as = .ok (as.flatMap g) := by
  induction as with
  | nil => rfl
  | cons a as ih =>
    rw [gather, h a List.mem_cons_self, ok_bind, ih fun b hb => h b (List.mem_cons_of_mem _ hb)]
    rfl

end Gather

end Scanline.Machine

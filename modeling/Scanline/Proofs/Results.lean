import Scanline.Note
/-! Results that may fail. A chain of steps succeeds just when each of its steps does, so that it is
taken apart step by step, and the notes on the way make no difference to it. -/

namespace Scanline

section Chains
variable {α β ε : Type}

@[simp] theorem ok_bind (a : α) (f : α → Except ε β) :
    ((Except.ok a : Except ε α) >>= f) = f a := rfl

theorem exists_of_bind_eq_ok {x : Except ε α} {f : α → Except ε β} {b : β}
    (h : x >>= f = .ok b) : ∃ a, x = .ok a ∧ f a = .ok b := by
  cases x with
  | error e => cases h
  | ok a => exact ⟨a, rfl, h⟩

theorem exists_of_map_eq_ok {x : Except ε α} {f : α → β} {b : β}
    (h : x.map f = .ok b) : ∃ a, x = .ok a ∧ f a = b := by
  cases x with
  | error e => cases h
  | ok a => exact ⟨a, rfl, Except.ok.inj h⟩

/-- A chain fails in its first step or after it. -/
theorem of_bind_eq_error {x : Except ε α} {f : α → Except ε β} {e : ε}
    (h : x >>= f = .error e) : x = .error e ∨ ∃ a, x = .ok a ∧ f a = .error e := by
  cases x with
  | error e' => exact .inl (congrArg Except.error (Except.error.inj h))
  | ok a => exact .inr ⟨a, rfl, h⟩

theorem eq_error_of_map_eq_error {x : Except ε α} {f : α → β} {e : ε}
    (h : x.map f = .error e) : x = .error e := by
  cases x with
  | error e' => exact congrArg Except.error (Except.error.inj h)
  | ok a => cases h

/-- A fold of steps that all succeed is the fold of what they answer. -/
theorem foldlM_eq_ok {step : β → α → Except ε β} {next : β → α → β} {as : List α}
    (h : ∀ a ∈ as, ∀ b, step b a = .ok (next b a)) (b : β) :
    as.foldlM step b = .ok (as.foldl next b) := by
  induction as generalizing b with
  | nil => rfl
  | cons a as ih =>
    rw [List.foldlM_cons, List.foldl_cons, h a List.mem_cons_self, ok_bind]
    exact ih (fun a ha => h a (List.mem_cons_of_mem _ ha)) _

/-- A fold of steps fails only as one of them does. -/
theorem of_foldlM_eq_error {step : β → α → Except ε β} {P : ε → Prop}
    (hstep : ∀ b a e, step b a = .error e → P e) {as : List α} {b : β} {e : ε}
    (h : as.foldlM step b = .error e) : P e := by
  induction as generalizing b with
  | nil => cases h
  | cons a as ih =>
    rw [List.foldlM_cons] at h
    rcases of_bind_eq_error h with h | ⟨next, -, h⟩
    · exact hstep b a e h
    · exact ih h

end Chains

namespace Attempt
variable {α : Type}

@[simp] theorem result_liftM (r : Except Failure α) : (liftM r : Attempt α).result = r := rfl

theorem result_go (step : α → Attempt α) (n : Nat) (a : α) (notes : List Note) :
    (iterate.go step n a notes).result = (iterate step n a).result := by
  induction n generalizing a notes with
  | zero => rfl
  | succ n ih =>
    rw [iterate, iterate.go, iterate.go]
    cases (step a).result with
    | error e => rfl
    | ok b =>
      dsimp only
      rw [ih, ih]

theorem result_iterate_succ (step : α → Attempt α) (n : Nat) (a : α) :
    (iterate step (n + 1) a).result = (step a).result >>= fun b => (iterate step n b).result := by
  rw [iterate, iterate.go]
  cases (step a).result with
  | error e => rfl
  | ok b => exact result_go step n b _

end Attempt

end Scanline

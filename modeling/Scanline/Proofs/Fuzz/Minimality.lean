import Scanline.Proofs.Fuzz.Attempts
/-! What shrinking leaves is minimal as far as its steps go. Unless the attempts are used up it ends
with a round that keeps its input, and such a round was denied every candidate: no byte can be taken
away, no chunk, and no value, or the check would no longer be broken. -/

namespace Scanline.Fuzz.Target

variable {σ : Type} {t : Target σ} {judge : Input → Verdict} {a : Input}

/-- Nothing can be taken from an input without losing the violation: no byte, no chunk at a multiple
of its size, also where the input ends within it, and no value other than zero. -/
structure Minimal (judge : Input → Verdict) (a : Input) : Prop where
  byte : ∀ i < a.length, (judge (a.eraseIdx i)).isViolation = false
  chunk : ∀ size ∈ [2, 4, 8, 16, 32], ∀ k, k * size < a.length →
    (judge (a.take (k * size) ++ a.drop (k * size + size))).isViolation = false
  value : ∀ i (h : i < a.length), a[i] ≠ 0 → (judge (a.set i 0)).isViolation = false

theorem minimal_of_denied (h : ∀ c ∈ a.candidates, (judge c).isViolation = false) :
    Minimal judge a where
  byte _ hi := h _ (Input.eraseIdx_mem_candidates hi)
  chunk size hsize k hk := by
    have hsizes : size ∈ Input.chunkSizes :=
      (by decide : ∀ size ∈ [2, 4, 8, 16, 32], size ∈ Input.chunkSizes) size hsize
    exact h _ (Input.chunk_mem_candidates hsizes hk)
  value _ hi hne := h _ (Input.set_zero_mem_candidates hi hne)

/-- A round that keeps its input asked about every candidate in vain. -/
theorem Settled.denied {x : Input × Probing σ} {q : Probing σ} (h : t.Settled x q)
    (hjudge : t.Judges judge) : ∀ c ∈ x.1.candidates, (judge c).isViolation = false := by
  obtain ⟨r, hround, hr⟩ := h
  obtain ⟨log, hcounts, htried⟩ := (asks_shrinkOnce t x.1).answer hround
  rw [hr] at htried
  obtain ⟨hlog, hdenied⟩ := htried.denied_of_eq
  intro c hc
  rw [← hlog] at hc
  obtain ⟨call, hcall, rfl⟩ := List.mem_map.mp hc
  exact hcounts.asked.verdict_eq hjudge call hcall ▸ hdenied call hcall

/-- Rounds on a short input leave attempts to spare. -/
theorem attempts_lt_of_short {input out : Input} {p q : Probing σ}
    (h : ((t.shrink input).run p).result = .ok (out, q))
    (hshort : p.attempts + (input.slack + 1) * input.candidates.length < maxAttempts) :
    q.attempts < maxAttempts := by
  obtain ⟨log, haccounted⟩ := accounted_of_shrink h
  rw [haccounted.attempts_eq]
  exact Nat.lt_of_le_of_lt (Nat.add_le_add_left haccounted.length_le _) hshort

/-- With attempts to spare, what shrinking leaves is minimal, and a violation is kept. -/
theorem shrink_minimal (hjudge : t.Judges judge) (input : Input) (p : Probing σ) :
    ∀ out q, ((t.shrink input).run p).result = .ok (out, q) → q.attempts < maxAttempts →
      Minimal judge out ∧
      ((judge input).isViolation = true → (judge out).isViolation = true) := by
  intro out q hok hattempts
  obtain ⟨n, z, hrounds, hstop⟩ := exists_rounds_of_shrink hok
  refine ⟨?_, hrounds.kept.sound.violation judge hjudge⟩
  rcases hstop with ⟨hspent, rfl⟩ | ⟨-, hsettled⟩
  · exact absurd hattempts (Nat.not_lt.mpr hspent)
  · exact minimal_of_denied (hsettled.denied hjudge)

theorem shrink_minimal_tripwire :
    ∃ out q, ((ofRules "trip" tripwire).minimize [1, 0xaa, 2, 3] .nothing).result = .ok (out, q) ∧
      q.attempts < maxAttempts ∧ Minimal (Rule.judge tripwire) out ∧
      (Rule.judge tripwire out).isViolation = true := by
  obtain ⟨out, q, hok⟩ :=
    (answers_ofRules "trip" tripwire).exists_shrink [1, 0xaa, 2, 3] ⟨.nothing, 0⟩
  have hattempts := attempts_lt_of_short hok (by decide)
  obtain ⟨hminimal, hviolation⟩ :=
    shrink_minimal (judges_ofRules "trip" tripwire) _ _ out q hok hattempts
  exact ⟨out, q, hok, hattempts, hminimal, hviolation (by decide)⟩

end Scanline.Fuzz.Target

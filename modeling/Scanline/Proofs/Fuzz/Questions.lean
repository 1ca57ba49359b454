import Scanline.Proofs.Fuzz.Candidates
/-! What shrinking asks its target. The questions that a probe puts to the target form a log, and
each of them is counted. A round tries candidates only, so that their number bounds its questions,
and it keeps its input just if every candidate is denied. -/

namespace Scanline.Fuzz.Target

variable {σ α β : Type} {t : Target σ} {s s' s'' : σ} {p q r : Probing σ} {a b c input : Input}
  {m n : Nat}

/-- Inputs that were given to a target, with what it said. -/
abbrev Log := List (Input × Verdict)

variable {log log' : Log}

/-- A target is given inputs one after the other, with a reset before each. -/
inductive Asked (t : Target σ) : σ → Log → σ → Prop
  | nil (s : σ) : Asked t s [] s
  | cons {s s' s'' : σ} {input : Input} {v : Verdict} {log : Log} :
      (t.fuzz input (t.reset s)).result = .ok (v, s') → Asked t s' log s'' →
      Asked t s ((input, v) :: log) s''

theorem Asked.append (h : t.Asked s log s') (h' : t.Asked s' log' s'') :
    t.Asked s (log ++ log') s'' := by
  induction h with
  | nil s => exact h'
  | cons hfuzz _ ih => exact .cons hfuzz (ih h')

theorem Asked.verdict_eq {judge : Input → Verdict} (hjudge : t.Judges judge)
    (h : t.Asked s log s') : ∀ call ∈ log, call.2 = judge call.1 := by
  induction h with
  | nil s => exact fun call hcall => absurd hcall List.not_mem_nil
  | cons hfuzz _ ih => exact List.forall_mem_cons.mpr ⟨hjudge _ _ _ _ hfuzz, ih⟩

/-- The questions between two states of a probe are counted, and there are at most `n` of them. -/
structure Counts (t : Target σ) (n : Nat) (p : Probing σ) (log : Log) (q : Probing σ) : Prop where
  asked : t.Asked p.state log q.state
  attempts_eq : q.attempts = p.attempts + log.length
  length_le : log.length ≤ n

theorem Counts.mono (h : t.Counts m p log q) (hle : m ≤ n) : t.Counts n p log q :=
  ⟨h.asked, h.attempts_eq, Nat.le_trans h.length_le hle⟩

theorem Counts.append (h : t.Counts m p log q) (h' : t.Counts n q log' r) :
    t.Counts (m + n) p (log ++ log') r where
  asked := h.asked.append h'.asked
  attempts_eq := by
    rw [h'.attempts_eq, h.attempts_eq, List.length_append, Nat.add_assoc]
  length_le := by
    rw [List.length_append]
    exact Nat.add_le_add h.length_le h'.length_le

/-- The target fails on the question that follows a log of fewer than `n` questions. -/
def FailsWithin (t : Target σ) (n : Nat) (s : σ) (e : Failure) : Prop :=
  ∃ log s' input, t.Asked s log s' ∧ (t.fuzz input (t.reset s')).result = .error e ∧ log.length < n

theorem FailsWithin.mono {e : Failure} (h : t.FailsWithin m s e) (hle : m ≤ n) :
    t.FailsWithin n s e := by
  obtain ⟨log, s', input, hasked, herr, hlt⟩ := h
  exact ⟨log, s', input, hasked, herr, Nat.lt_of_lt_of_le hlt hle⟩

theorem FailsWithin.after {e : Failure} (h : t.FailsWithin n s' e) (hasked : t.Asked s log s') :
    t.FailsWithin (log.length + n) s e := by
  obtain ⟨log', s'', input, hasked', herr, hlt⟩ := h
  refine ⟨log ++ log', s'', input, hasked.append hasked', herr, ?_⟩
  rw [List.length_append]
  exact Nat.add_lt_add_left hlt log.length

/-- A probe counts its questions, asks at most `n` of them, and what it answers is right given their
log. It fails only as the target does. -/
structure Asks (t : Target σ) (n : Nat) (x : Probe σ α) (P : Log → α → Prop) : Prop where
  answer : ∀ {p a q}, (x.run p).result = .ok (a, q) → ∃ log, t.Counts n p log q ∧ P log a
  failure : ∀ {p e}, (x.run p).result = .error e → t.FailsWithin n p.state e

section Chains
variable {x : Probe σ α} {f : α → Probe σ β} {P P' : Log → α → Prop} {Q : Log → β → Prop}

theorem asks_pure {a : α} (h : P [] a) : t.Asks 0 (pure a) P where
  answer {p _ _} hok := by
    obtain ⟨rfl, rfl⟩ := Prod.mk.inj (Except.ok.inj hok)
    exact ⟨[], ⟨.nil p.state, rfl, Nat.le_refl 0⟩, h⟩
  failure herr := nomatch herr

theorem Asks.mono (hx : t.Asks m x P) (hle : m ≤ n) (h : ∀ log a, P log a → P' log a) :
    t.Asks n x P' where
  answer hok := by
    obtain ⟨log, hcounts, hP⟩ := hx.answer hok
    exact ⟨log, hcounts.mono hle, h _ _ hP⟩
  failure herr := (hx.failure herr).mono hle

/-- The next step asks further questions, and both logs together say what it answers. -/
theorem Asks.bind (hx : t.Asks m x P)
    (hf : ∀ log a, P log a → t.Asks n (f a) fun log' b => Q (log ++ log') b) :
    t.Asks (m + n) (x >>= f) Q where
  answer {p b r} hok := by
    rw [result_bind] at hok
    obtain ⟨⟨a, q⟩, hok, hnext⟩ := exists_of_bind_eq_ok hok
    obtain ⟨log, hcounts, hP⟩ := hx.answer hok
    obtain ⟨log', hcounts', hQ⟩ := (hf log a hP).answer hnext
    exact ⟨log ++ log', hcounts.append hcounts', hQ⟩
  failure {p e} herr := by
    rw [result_bind] at herr
    rcases of_bind_eq_error herr with herr | ⟨⟨a, q⟩, hok, herr⟩
    · exact (hx.failure herr).mono (Nat.le_add_right m n)
    · obtain ⟨log, hcounts, hP⟩ := hx.answer hok
      have hfails := ((hf log a hP).failure herr).after hcounts.asked
      exact hfails.mono (Nat.add_le_add_right hcounts.length_le n)

theorem asks_stillFails (t : Target σ) (input : Input) :
    t.Asks 1 (t.stillFails input) fun log fails =>
      ∃ v, log = [(input, v)] ∧ v.isViolation = fails where
  answer {p fails q} hok := by
    rw [result_stillFails] at hok
    obtain ⟨⟨v, s⟩, hfuzz, hr⟩ := exists_of_map_eq_ok hok
    obtain ⟨hfails, rfl⟩ := Prod.mk.inj hr
    exact ⟨[(input, v)], ⟨.cons hfuzz (.nil s), rfl, Nat.le_refl 1⟩, v, rfl, hfails⟩
  failure {p e} herr := by
    rw [result_stillFails] at herr
    exact ⟨[], p.state, input, .nil p.state, eq_error_of_map_eq_error herr, Nat.one_pos⟩

/-- One more question in front, on whose answer it depends how to go on. -/
theorem asks_try {accept deny : Probe σ α}
    (haccept : ∀ v : Verdict, v.isViolation = true →
      t.Asks n accept fun log a => P ((input, v) :: log) a)
    (hdeny : ∀ v : Verdict, v.isViolation = false →
      t.Asks n deny fun log a => P ((input, v) :: log) a) :
    t.Asks (n + 1) (do if ← t.stillFails input then accept else deny) P := by
  rw [Nat.add_comm]
  apply (asks_stillFails t input).bind
  intro log fails ⟨v, hlog, hv⟩
  subst hlog
  cases fails with
  | false => exact hdeny v hv
  | true => exact haccept v hv

end Chains

/-- What becomes of an input when candidates are tried: it stays as it is and every candidate is
denied, in order, or it is reduced and one of them was accepted. -/
inductive Tried (a : Input) (candidates : List Input) (log : Log) (b : Input) : Prop
  | denied : b = a → log.map Prod.fst = candidates →
      (∀ call ∈ log, call.2.isViolation = false) → Tried a candidates log b
  | accepted (call : Input × Verdict) : a.Reduces b → b.Smaller a → call ∈ log →
      call.1 ∈ candidates → call.2.isViolation = true → Tried a candidates log b

section Tried
variable {candidates candidates' : List Input} {call : Input × Verdict}

theorem tried_nil (a : Input) : Tried a [] [] a :=
  .denied rfl rfl fun _ hcall => absurd hcall List.not_mem_nil

theorem Tried.reduces (h : Tried a candidates log b) : a.Reduces b := by
  cases h with
  | denied heq _ _ => exact heq ▸ Input.Reduces.refl a
  | accepted _ hreduces _ _ _ _ => exact hreduces

theorem Tried.eq_or_smaller (h : Tried a candidates log b) : b = a ∨ b.Smaller a := by
  cases h with
  | denied heq _ _ => exact .inl heq
  | accepted _ _ hsmaller _ _ _ => exact .inr hsmaller

theorem Tried.smaller (h : Tried b candidates log c) (hsmaller : b.Smaller a) : c.Smaller a := by
  rcases h.eq_or_smaller with rfl | hlower
  · exact hsmaller
  · exact hlower.trans hsmaller

/-- One more candidate is denied first. -/
theorem Tried.cons (h : Tried a candidates log b) (call : Input × Verdict)
    (hcall : call.2.isViolation = false) :
    Tried a (call.1 :: candidates) (call :: log) b := by
  cases h with
  | denied heq hlog hall =>
    refine .denied heq ?_ (List.forall_mem_cons.mpr ⟨hcall, hall⟩)
    rw [List.map_cons, hlog]
  | accepted call' hreduces hsmaller hlog hmem hviolation =>
    exact .accepted call' hreduces hsmaller (List.mem_cons_of_mem _ hlog)
      (List.mem_cons_of_mem _ hmem) hviolation

/-- A smaller reduction is accepted first, and the rest is tried on it. -/
theorem Tried.lower (h : Tried b candidates' log c) (hreduces : a.Reduces b)
    (hsmaller : b.Smaller a) (hmem : call.1 ∈ candidates) (hviolation : call.2.isViolation = true) :
    Tried a candidates (call :: log) c :=
  .accepted call (hreduces.trans h.reduces) (h.smaller hsmaller) List.mem_cons_self hmem hviolation

/-- Candidates are tried on what other candidates left. -/
theorem Tried.append {f : Input → List Input} (h : Tried a candidates log b)
    (h' : Tried b (f b) log' c) : Tried a (candidates ++ f a) (log ++ log') c := by
  cases h with
  | denied heq hlog hall =>
    subst heq
    cases h' with
    | denied heq' hlog' hall' =>
      refine .denied heq' ?_ (List.forall_mem_append.mpr ⟨hall, hall'⟩)
      rw [List.map_append, hlog, hlog']
    | accepted call hreduces hsmaller hcall hmem hviolation =>
      exact .accepted call hreduces hsmaller (List.mem_append_right _ hcall)
        (List.mem_append_right _ hmem) hviolation
  | accepted call hreduces hsmaller hcall hmem hviolation =>
    exact .accepted call (hreduces.trans h'.reduces) (h'.smaller hsmaller)
      (List.mem_append_left _ hcall) (List.mem_append_left _ hmem) hviolation

/-- Only a denied round keeps its input. -/
theorem Tried.denied_of_eq (h : Tried a candidates log a) :
    log.map Prod.fst = candidates ∧ ∀ call ∈ log, call.2.isViolation = false := by
  cases h with
  | denied _ hlog hall => exact ⟨hlog, hall⟩
  | accepted _ _ hsmaller _ _ _ => exact absurd rfl hsmaller.ne

end Tried

theorem asks_cut (t : Target σ) (input : Input) (places : List (Nat × Nat)) :
    t.Asks (input.cuts places).length (t.cut input places) fun log r =>
      Tried input (input.cuts places) log r.value := by
  induction places with
  | nil => exact asks_pure (tried_nil input)
  | cons place rest ih =>
    obtain ⟨start, size⟩ := place
    by_cases h : (input.without start size).length < input.length
    · rw [cut_cons_of_lt h, Input.cuts_cons_of_lt h, List.length_cons]
      refine asks_try (fun v hv => ?_) fun v hv => ?_
      · refine (asks_pure ?_).mono (Nat.zero_le _) fun log r hr => hr
        exact .accepted (_, v) (input.reduces_without start size) (.inl h) List.mem_cons_self
          List.mem_cons_self hv
      · exact ih.mono (Nat.le_refl _) fun log r hr => hr.cons (_, v) hv
    · rw [cut_cons_of_not_lt h, Input.cuts_cons_of_not_lt h]
      exact ih

/-- Each place is asked about once at most, whatever became of the places before it. -/
theorem asks_blank (t : Target σ) (places : List Nat) (r : Reduct input) :
    t.Asks (r.value.blanks places).length (t.blank places r) fun log r' =>
      Tried r.value (r.value.blanks places) log r'.value := by
  induction places generalizing r with
  | nil => exact asks_pure (tried_nil r.value)
  | cons i rest ih =>
    by_cases h : r.value.set i 0 = r.value
    · rw [blank_cons_of_eq h, Input.blanks_cons_of_eq h]
      exact ih r
    · rw [blank_cons_of_ne h, Input.blanks_cons_of_ne h, List.length_cons]
      refine asks_try (fun v hv => ?_) fun v hv => ?_
      · refine (ih _).mono (Input.length_blanks_set_zero_le r.value i rest) fun log r' hr => ?_
        exact hr.lower (r.value.reduces_set_zero i) (Input.smaller_set_zero h) List.mem_cons_self hv
      · exact (ih r).mono (Nat.le_refl _) fun log r' hr => hr.cons (_, v) hv

/-- A round asks about no more than its candidates. -/
theorem asks_shrinkOnce (t : Target σ) (input : Input) :
    t.Asks input.candidates.length (t.shrinkOnce input) fun log r =>
      Tried input input.candidates log r.value := by
  rw [Input.candidates, List.length_append]
  refine (asks_cut t input _).bind fun log r hr => ?_
  refine (asks_blank t _ r).mono ?_ fun log' r' hr' => ?_
  · rw [Input.length_blanks_range, Input.length_blanks_range]
    exact hr.reduces.weight_le
  · exact hr.append (f := fun a => a.blanks (List.range a.length)) hr'

end Scanline.Fuzz.Target

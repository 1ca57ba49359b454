import Scanline.Proofs.Fuzz.Questions
/-! The limit on the attempts. It is looked at between rounds only. So nothing is asked once it is
reached, but the last round may go past it, by less than one question for each candidate of the
input; and an input of which every candidate is denied is asked about once for each of them, however
many there are. -/

namespace Scanline.Fuzz.Target

variable {σ : Type} {t : Target σ} {p q : Probing σ} {a b input : Input} {log log' : Log}

/-- What a round below the limit leads to: the target fails, the round keeps its input and is the
last one, or it reduces its input and shrinking goes on. -/
inductive Turn (t : Target σ) (input : Input) (p : Probing σ) : Prop
  | failed (e : Failure) : ((t.shrink input).run p).result = .error e →
      t.FailsWithin input.candidates.length p.state e → Turn t input p
  | kept (log : Log) (q : Probing σ) : ((t.shrink input).run p).result = .ok (input, q) →
      t.Counts input.candidates.length p log q → Tried input input.candidates log input →
      Turn t input p
  | reduced (log : Log) (q : Probing σ) (r : Reduct input) : r.value ≠ input →
      ((t.shrink input).run p).result = ((t.shrink r.value).run q).result →
      t.Counts input.candidates.length p log q → Tried input input.candidates log r.value →
      Turn t input p

theorem turn_of_lt (t : Target σ) (input : Input) (hlt : p.attempts < maxAttempts) :
    t.Turn input p := by
  have hrun := run_shrink_of_lt input hlt (t := t)
  cases hround : ((t.shrinkOnce input).run p).result with
  | error e =>
    rw [hround] at hrun
    exact .failed e hrun ((asks_shrinkOnce t input).failure hround)
  | ok answer =>
    obtain ⟨r, q⟩ := answer
    obtain ⟨log, hcounts, htried⟩ := (asks_shrinkOnce t input).answer hround
    rw [hround, ok_bind] at hrun
    by_cases hr : r.value = input
    · rw [if_pos hr] at hrun
      rw [hr] at htried
      exact .kept log q hrun hcounts htried
    · rw [if_neg hr] at hrun
      exact .reduced log q r hr hrun hcounts htried

/-- The questions of shrinking an input: each is counted, and there are only so many. Past the limit
there are none, and below it the total goes past it by less than one for each candidate. -/
structure Accounted (t : Target σ) (input : Input) (p : Probing σ) (log : Log) (q : Probing σ) :
    Prop extends Counts t ((input.slack + 1) * input.candidates.length) p log q where
  spent : maxAttempts ≤ p.attempts → log = []
  attempts_lt : p.attempts < maxAttempts → q.attempts < maxAttempts + input.candidates.length

theorem accounted_nil (t : Target σ) (input : Input) (hle : maxAttempts ≤ p.attempts) :
    t.Accounted input p [] p where
  asked := .nil p.state
  attempts_eq := rfl
  length_le := Nat.zero_le _
  spent _ := rfl
  attempts_lt hlt := absurd hlt (Nat.not_lt.mpr hle)

theorem Counts.accounted (h : t.Counts input.candidates.length p log q)
    (hlt : p.attempts < maxAttempts) : t.Accounted input p log q where
  asked := h.asked
  attempts_eq := h.attempts_eq
  length_le := Nat.le_trans h.length_le (Nat.le_mul_of_pos_left _ (Nat.succ_pos _))
  spent hle := absurd hlt (Nat.not_lt.mpr hle)
  attempts_lt _ := by
    rw [h.attempts_eq]
    exact Nat.add_lt_add_of_lt_of_le hlt h.length_le

/-- A round that reduces its input, and then further rounds. -/
theorem Accounted.cons {z : Probing σ} (hlt : p.attempts < maxAttempts)
    (hround : t.Counts a.candidates.length p log z) (hreduces : a.Reduces b)
    (hsmaller : b.Smaller a) (h : t.Accounted b z log' q) : t.Accounted a p (log ++ log') q := by
  have hcandidates := hreduces.length_candidates_le
  have hrest : (b.slack + 1) * b.candidates.length ≤ a.slack * a.candidates.length :=
    Nat.mul_le_mul (hreduces.slack_lt hsmaller) hcandidates
  have hcounts := (hround.append h.toCounts).mono (Nat.add_le_add_left hrest _)
  rw [Nat.add_comm, ← Nat.succ_mul] at hcounts
  refine ⟨hcounts, fun hle => absurd hlt (Nat.not_lt.mpr hle), fun _ => ?_⟩
  rcases Nat.lt_or_ge z.attempts maxAttempts with hbelow | hpast
  · exact Nat.lt_of_lt_of_le (h.attempts_lt hbelow) (Nat.add_le_add_left hcandidates _)
  · have hlast : q.attempts = z.attempts := by
      rw [h.attempts_eq, h.spent hpast, List.length_nil, Nat.add_zero]
    rw [hlast]
    exact (hround.accounted hlt).attempts_lt hlt

theorem accounted_of_shrink {out : Input} (h : ((t.shrink input).run p).result = .ok (out, q)) :
    ∃ log, t.Accounted input p log q := by
  induction input using shrink.induct generalizing p with
  | case1 input ih =>
    rcases Nat.lt_or_ge p.attempts maxAttempts with hlt | hle
    · cases turn_of_lt t input hlt with
      | failed e herr _ =>
        rw [herr] at h
        cases h
      | kept log z hok hcounts _ =>
        rw [hok] at h
        obtain ⟨-, rfl⟩ := Prod.mk.inj (Except.ok.inj h)
        exact ⟨log, hcounts.accounted hlt⟩
      | reduced log z r hne hrun hcounts htried =>
        rw [hrun] at h
        obtain ⟨log', hrest⟩ := ih r hne h
        have hsmaller := htried.eq_or_smaller.resolve_left hne
        exact ⟨log ++ log', .cons hlt hcounts htried.reduces hsmaller hrest⟩
    · rw [run_shrink_of_le input hle] at h
      obtain ⟨-, rfl⟩ := Prod.mk.inj (Except.ok.inj h)
      exact ⟨[], accounted_nil t input hle⟩

/-- Where the target fails, no more was asked than where it does not. -/
theorem failsWithin_of_shrink {e : Failure} (h : ((t.shrink input).run p).result = .error e) :
    ∃ n, t.FailsWithin n p.state e ∧ p.attempts + n < maxAttempts + input.candidates.length := by
  induction input using shrink.induct generalizing p with
  | case1 input ih =>
    rcases Nat.lt_or_ge p.attempts maxAttempts with hlt | hle
    · cases turn_of_lt t input hlt with
      | failed e' herr hfails =>
        rw [herr] at h
        cases h
        exact ⟨_, hfails, Nat.add_lt_add_right hlt _⟩
      | kept log z hok _ _ =>
        rw [hok] at h
        cases h
      | reduced log z r hne hrun hcounts htried =>
        rw [hrun] at h
        obtain ⟨n, hfails, hn⟩ := ih r hne h
        refine ⟨log.length + n, hfails.after hcounts.asked, ?_⟩
        rw [← Nat.add_assoc, ← hcounts.attempts_eq]
        exact Nat.lt_of_lt_of_le hn (Nat.add_le_add_left htried.reduces.length_candidates_le _)
    · rw [run_shrink_of_le input hle] at h
      cases h

/-- An input of which every candidate is denied takes one round, which asks about all of them. -/
theorem attempts_of_denied {judge : Input → Verdict} {out : Input} (hjudge : t.Judges judge)
    (hlt : p.attempts < maxAttempts)
    (hdenied : ∀ c ∈ input.candidates, (judge c).isViolation = false)
    (h : ((t.shrink input).run p).result = .ok (out, q)) :
    out = input ∧ q.attempts = p.attempts + input.candidates.length := by
  cases turn_of_lt t input hlt with
  | failed e herr _ =>
    rw [herr] at h
    cases h
  | kept log z hok hcounts htried =>
    rw [hok] at h
    obtain ⟨rfl, rfl⟩ := Prod.mk.inj (Except.ok.inj h)
    exact ⟨rfl, by rw [hcounts.attempts_eq, ← htried.denied_of_eq.1, List.length_map]⟩
  | reduced log z r hne _ hcounts htried =>
    cases htried with
    | denied hr _ _ => exact absurd hr hne
    | accepted call _ _ hcall hmem hviolation =>
      rw [hcounts.asked.verdict_eq hjudge call hcall, hdenied _ hmem] at hviolation
      exact absurd hviolation Bool.false_ne_true

theorem Answers.exists_shrink (h : t.Answers) (input : Input) (p : Probing σ) :
    ∃ out q, ((t.shrink input).run p).result = .ok (out, q) := by
  cases hrun : ((t.shrink input).run p).result with
  | error e => exact absurd (fails_of_shrink hrun) (h.not_fails e)
  | ok answer => exact ⟨answer.1, answer.2, rfl⟩

/-- How often shrinking asks its target. Every question is counted, and below the limit the
questions of the last round are all that can go past it: less than one for each candidate of the
input, whose number follows from its length and its bytes other than zero. That many may be asked:
where every candidate is denied, there is one question for each of them. -/
theorem shrink_attempts (t : Target σ) (input : Input) (p : Probing σ) :
    (∀ out q, ((t.shrink input).run p).result = .ok (out, q) → ∃ log, t.Accounted input p log q) ∧
    (∀ e, ((t.shrink input).run p).result = .error e → ∃ n, t.FailsWithin n p.state e ∧
      p.attempts + n < maxAttempts + input.candidates.length) ∧
    (∀ judge, t.Judges judge → p.attempts < maxAttempts →
      (∀ c ∈ input.candidates, (judge c).isViolation = false) →
      ∀ out q, ((t.shrink input).run p).result = .ok (out, q) →
        out = input ∧ q.attempts = p.attempts + input.candidates.length) ∧
    input.candidates.length =
      (([32, 16, 8, 4, 2, 1] : List Nat).map fun size => (input.length + size - 1) / size).sum +
        input.weight := by
  refine ⟨fun out q => accounted_of_shrink, fun e => failsWithin_of_shrink, ?_,
    input.length_candidates⟩
  intro judge hjudge hlt hdenied out q hok
  exact attempts_of_denied hjudge hlt hdenied hok

/-- A short input, all of it needed: one question for each chunk and each byte, twelve of them. -/
theorem shrink_attempts_three :
    ∃ q, ((ofRules "quiet" []).minimize [1, 2, 3] .nothing).result = .ok ([1, 2, 3], q) ∧
      q.attempts = 12 ∧ ∃ log, (ofRules "quiet" []).Accounted [1, 2, 3] ⟨.nothing, 0⟩ log q := by
  obtain ⟨haccounted, -, hdenied, -⟩ := shrink_attempts (ofRules "quiet" []) [1, 2, 3] ⟨.nothing, 0⟩
  obtain ⟨out, q, hok⟩ := (answers_ofRules "quiet" []).exists_shrink [1, 2, 3] ⟨.nothing, 0⟩
  obtain ⟨rfl, hattempts⟩ :=
    hdenied _ (judges_ofRules "quiet" []) (by decide) (fun _ _ => rfl) out q hok
  exact ⟨q, hok, hattempts.trans (by decide), haccounted _ q hok⟩

/-- A target given by rules counts its calls itself. -/
theorem Asked.calls_eq {name : String} {rules : List Rule} {s s' : Seen}
    (h : (ofRules name rules).Asked s log s') : s'.calls = s.calls + log.length := by
  induction h with
  | nil s => rfl
  | @cons s s' s'' input v log hfuzz _ ih =>
    obtain ⟨-, rfl⟩ := Prod.mk.inj (Except.ok.inj hfuzz)
    have hone : (((ofRules name rules).reset s).call input).calls = s.calls + 1 := rfl
    rw [ih, hone, List.length_cons]
    omega

theorem exists_quiet_calls (name : String) (input : Input) :
    ∃ out q, ((ofRules name []).minimize input .nothing).result = .ok (out, q) ∧
      q.state.calls = input.candidates.length := by
  obtain ⟨out, q, hok⟩ := (answers_ofRules name []).exists_shrink input ⟨.nothing, 0⟩
  obtain ⟨log, haccounted⟩ := accounted_of_shrink hok
  obtain ⟨-, hattempts⟩ :=
    attempts_of_denied (judges_ofRules name []) (by decide) (fun _ _ => rfl) hok
  have hlength : log.length = input.candidates.length :=
    Nat.add_left_cancel (haccounted.attempts_eq.symm.trans hattempts)
  refine ⟨out, q, hok, ?_⟩
  rw [haccounted.asked.calls_eq, hlength]
  exact Nat.zero_add _

/-- A long input takes the questions of a single round past the limit. -/
theorem minimize_past_limit :
    ∃ out q, ((ofRules "quiet" []).minimize (List.replicate 4096 1) .nothing).result =
      .ok (out, q) ∧ q.state.calls = 12160 ∧ maxAttempts < q.state.calls := by
  obtain ⟨out, q, hok, hcalls⟩ := exists_quiet_calls "quiet" (List.replicate 4096 1)
  have hcount : (Input.candidates (List.replicate 4096 1)).length = 12160 := by
    rw [Input.length_candidates, Input.weight, List.countP_replicate, List.length_replicate]
    rfl
  rw [hcount] at hcalls
  refine ⟨out, q, hok, hcalls, ?_⟩
  rw [hcalls]
  decide

end Scanline.Fuzz.Target

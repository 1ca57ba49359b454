import Mathlib.Algebra.Ring.Nat
import Scanline.Fuzz.Rules
import Scanline.Proofs.Fuzz.Accounts
/-! Campaigns as their owners use them: any requests, one after the other. As long as the targets
answer, no request fails, and the accounts of a campaign balance after any of them. -/

namespace Scanline.Fuzz

/-- What the owner of a campaign may ask of it. -/
inductive Request (σ : Type) where
  | addTarget (t : Target σ) (s : σ)
  | addInput (input : Input)
  | addEntries (entries : List Input)
  | run (rounds : Nat)

namespace Request

variable {σ : Type}

def target? : Request σ → Option (Target σ × σ)
  | addTarget t s => some (t, s)
  | _ => none

def rounds : Request σ → Nat
  | run n => n
  | _ => 0

def isRun : Request σ → Bool
  | run _ => true
  | _ => false

end Request

theorem Target.answers_ofRules (name : String) (rules : List Rule) :
    (ofRules name rules).Answers :=
  fun input s => ⟨Rule.judge rules input, s.call input, rfl⟩

variable {σ : Type}

def added (requests : List (Request σ)) : List (Target σ × σ) := requests.filterMap Request.target?

def totalRounds (requests : List (Request σ)) : Nat := (requests.map Request.rounds).sum

/-- No target is added after a run. -/
def TargetsFirst (requests : List (Request σ)) : Prop :=
  requests.Pairwise fun r r' => r.isRun = true → r'.target? = none

namespace Campaign

def perform (c : Campaign σ) : Request σ → Attempt (Campaign σ)
  | .addTarget t s => return c.addTarget t s
  | .addInput input => return c.keep input
  | .addEntries entries => return c.addEntries entries
  | .run n => c.run n

def performAll (c : Campaign σ) (requests : List (Request σ)) : Attempt (Campaign σ) :=
  requests.foldlM perform c

variable {c c' : Campaign σ} {calls : List Call} {inputs : List Input}
  {config : CampaignConfig} {done requests : List (Request σ)}

section Answers

/-- Every target answers. -/
def Ready (c : Campaign σ) : Prop := ∀ t ∈ c.targets, t.1.Answers

theorem Ready.of_map_fst {ts : List (Target σ × σ)} (h : c.Ready)
    (hsame : ts.map Prod.fst = c.targets.map Prod.fst) : ∀ t ∈ ts, t.1.Answers := by
  intro t ht
  have hmem : t.1 ∈ c.targets.map Prod.fst := hsame ▸ List.mem_map_of_mem ht
  obtain ⟨t', ht', heq⟩ := List.mem_map.mp hmem
  exact heq ▸ h t' ht'

theorem exists_nextInput (c : Campaign σ) : ∃ r, c.nextInput = .ok r := by
  obtain ⟨v, mutator, hnext⟩ := c.mutator.exists_next
  obtain ⟨input, mutator', hmutate, -⟩ := mutator.exists_mutate ((c.corpus.entry? v).getD [])
  refine ⟨(input.take c.config.maxInput, mutator'), ?_⟩
  rw [nextInput, hnext, ok_bind]
  dsimp only
  rw [hmutate]
  rfl

theorem Ready.exists_trial (h : c.Ready) : ∃ r, c.trial.result = .ok r := by
  obtain ⟨⟨input, mutator⟩, hinput⟩ := exists_nextInput c
  obtain ⟨⟨verdicts, ts⟩, hjudge⟩ := exists_judgeAll input h
  rw [trial, Attempt.result_bind, Attempt.result_liftM, hinput, ok_bind, Attempt.result_bind, hjudge,
    ok_bind]
  exact ⟨_, rfl⟩

theorem Ready.exists_step (h : c.Ready) : ∃ c', c.step.result = .ok c' ∧ c'.Ready := by
  obtain ⟨⟨⟨input, verdicts⟩, tried⟩, htrial⟩ := h.exists_trial
  obtain ⟨mutator, ts, -, hanswered, htried⟩ := exists_of_trial htrial
  have htargets : tried.targets = ts := by rw [htried]
  have haside := aside_foldl tried (logged input verdicts)
  have hready : ((logged input verdicts).foldl entered tried).Ready := by
    rw [Ready, haside.targets_eq, htargets]
    exact h.of_map_fst hanswered.map_fst
  rw [Campaign.step, Attempt.result_bind, htrial, ok_bind, result_absorb]
  refine ⟨_, rfl, ?_⟩
  split
  · exact hready
  · exact hready

theorem Ready.exists_run (h : c.Ready) (n : Nat) : ∃ c', (c.run n).result = .ok c' ∧ c'.Ready := by
  rw [Campaign.run]
  induction n generalizing c with
  | zero => exact ⟨c, rfl, h⟩
  | succ n ih =>
    obtain ⟨next, hnext, hready⟩ := h.exists_step
    obtain ⟨c', hok, hready'⟩ := ih hready
    refine ⟨c', ?_, hready'⟩
    rw [Attempt.result_iterate_succ, hnext]
    exact hok

theorem Ready.exists_perform (h : c.Ready) (r : Request σ)
    (hr : ∀ t, r.target? = some t → t.1.Answers) :
    ∃ c', (c.perform r).result = .ok c' ∧ c'.Ready := by
  cases r with
  | addTarget t s =>
    refine ⟨_, rfl, List.forall_mem_append.mpr ⟨h, List.forall_mem_singleton.mpr ?_⟩⟩
    exact hr (t, s) rfl
  | addInput input => exact ⟨_, rfl, h⟩
  | addEntries entries => exact ⟨_, rfl, h⟩
  | run n => exact h.exists_run n

theorem Ready.exists_performAll (h : c.Ready) (hadded : ∀ t ∈ added requests, t.1.Answers) :
    ∃ c', (c.performAll requests).result = .ok c' := by
  rw [performAll]
  induction requests generalizing c with
  | nil => exact ⟨c, rfl⟩
  | cons r requests ih =>
    have hadd : added (r :: requests) = added [r] ++ added requests :=
      List.filterMap_append (l := [r])
    rw [hadd, List.forall_mem_append] at hadded
    obtain ⟨next, hnext, hready⟩ := h.exists_perform r fun t ht =>
      hadded.1 t (List.mem_filterMap.mpr ⟨r, List.mem_cons_self, ht⟩)
    obtain ⟨c', hok⟩ := ih hready hadded.2
    refine ⟨c', ?_⟩
    rw [List.foldlM_cons, Attempt.result_bind, hnext]
    exact hok

end Answers

theorem added_concat_addTarget (requests : List (Request σ)) (t : Target σ) (s : σ) :
    added (requests ++ [.addTarget t s]) = added requests ++ [(t, s)] :=
  List.filterMap_append

theorem added_concat_of_none {r : Request σ} (h : r.target? = none) :
    added (requests ++ [r]) = added requests := by
  rw [added, List.filterMap_append, List.filterMap_cons_none h, List.filterMap_nil,
    List.append_nil]
  rfl

theorem totalRounds_concat (requests : List (Request σ)) (r : Request σ) :
    totalRounds (requests ++ [r]) = totalRounds requests + r.rounds := by
  rw [totalRounds, List.map_append, List.sum_append, List.map_singleton, List.sum_singleton]
  rfl

/-- Before the first run there are no rounds. -/
theorem totalRounds_eq_zero {r : Request σ} (h : TargetsFirst (done ++ r :: requests))
    (hr : r.target?.isSome = true) : totalRounds done = 0 := by
  rw [totalRounds, List.sum_eq_zero_iff_forall_eq_nat]
  intro n hn
  obtain ⟨r', hr', rfl⟩ := List.mem_map.mp hn
  have hlater := (List.pairwise_append.mp h).2.2 r' hr' r List.mem_cons_self
  cases r' with
  | run n =>
    rw [hlater rfl] at hr
    exact absurd hr Bool.false_ne_true
  | addTarget t s => rfl
  | addInput input => rfl
  | addEntries entries => rfl

/-- One more request, and the accounts go along. -/
theorem Accounts.perform {r : Request σ} (h : Accounts config (added done) inputs calls c)
    (hrounds : inputs.length = totalRounds done)
    (hfirst : r.target?.isSome = true → totalRounds done = 0)
    (hok : (c.perform r).result = .ok c') : ∃ inputs' calls',
      Accounts config (added (done ++ [r])) inputs' calls' c' ∧
        inputs'.length = totalRounds (done ++ [r]) := by
  rw [totalRounds_concat, ← hrounds]
  cases r with
  | addTarget t s =>
    have hnone : inputs = [] := List.length_eq_zero_iff.mp (hrounds.trans (hfirst rfl))
    rw [← Except.ok.inj hok, added_concat_addTarget]
    exact ⟨inputs, calls, h.addTarget hnone t s, rfl⟩
  | addInput input =>
    rw [← Except.ok.inj hok, added_concat_of_none rfl]
    exact ⟨inputs, calls, h.keep input, rfl⟩
  | addEntries entries =>
    rw [← Except.ok.inj hok, added_concat_of_none rfl]
    exact ⟨inputs, calls, h.addEntries entries, rfl⟩
  | run n =>
    rw [added_concat_of_none rfl]
    exact h.run hok

theorem Accounts.performAll (h : Accounts config (added done) inputs calls c)
    (hrounds : inputs.length = totalRounds done) (hfirst : TargetsFirst (done ++ requests))
    (hok : (c.performAll requests).result = .ok c') : ∃ inputs' calls',
      Accounts config (added (done ++ requests)) inputs' calls' c' ∧
        inputs'.length = totalRounds (done ++ requests) := by
  rw [Campaign.performAll] at hok
  induction requests generalizing c done inputs calls with
  | nil =>
    rw [← Except.ok.inj hok, List.append_nil]
    exact ⟨inputs, calls, h, hrounds⟩
  | cons r requests ih =>
    rw [List.foldlM_cons, Attempt.result_bind] at hok
    obtain ⟨next, hnext, hok⟩ := exists_of_bind_eq_ok hok
    obtain ⟨inputs', calls', hperform, hrounds'⟩ :=
      h.perform hrounds (totalRounds_eq_zero hfirst) hnext
    rw [List.append_cons] at hfirst ⊢
    exact ih hperform hrounds' hfirst hok

/-- The counters, the findings and the corpus of a campaign are what a log of calls says. -/
structure Balanced (config : CampaignConfig) (requests : List (Request σ)) (inputs : List Input)
    (calls : List Call) (c : Campaign σ) : Prop where
  shown : Shown (added requests) inputs calls c.targets
  inputs_length : inputs.length = totalRounds requests
  iterations_eq : c.stats.iterations = totalRounds requests
  executions_eq : c.stats.executions = c.stats.iterations * (added requests).length
  rejected_eq : c.stats.rejected = calls.countP (·.verdict = .rejected)
  violations_eq : c.stats.violations = calls.countP (·.verdict.isViolation)
  findings_eq : c.findings = firsts (calls.filterMap Call.finding?)
  /-- Each finding is the first of its target and kind. -/
  first : ∀ f ∈ c.findings, (calls.filterMap Call.finding?).find? (·.key == f.key) = some f
  /-- No target and kind is found twice. -/
  distinct : (c.findings.map Finding.key).Nodup
  /-- No target and kind is missing. -/
  complete : ∀ f ∈ calls.filterMap Call.finding?, ∃ g ∈ c.findings, g.key = f.key
  unique_eq : c.stats.unique = c.findings.length
  calls_short : ∀ call ∈ calls, call.input.length ≤ config.maxInput
  findings_short : ∀ f ∈ c.findings, f.input.length ≤ config.maxInput
  corpusSize_eq : c.stats.corpusSize = c.corpus.size
  corpus_le : c.corpus.size ≤ 1024
  corpus_nodup : c.corpus.entries.Nodup

theorem Accounts.balanced (h : Accounts config (added requests) inputs calls c)
    (hrounds : inputs.length = totalRounds requests) :
    Balanced config requests inputs calls c := by
  have hcounted := h.counted
  have hshort : ∀ call ∈ calls, call.input.length ≤ config.maxInput :=
    fun call hcall => h.short _ (h.shown.input_mem call hcall)
  have hfirst : ∀ f ∈ c.findings,
      (calls.filterMap Call.finding?).find? (·.key == f.key) = some f := by
    intro f hf
    rw [hcounted.findings_eq] at hf
    exact mem_firsts.mp hf
  refine ⟨h.shown, hrounds, h.iterations_eq.trans hrounds, ?_, hcounted.rejected_eq,
    hcounted.violations_eq, hcounted.findings_eq, hfirst, ?_, ?_, hcounted.unique_eq, hshort, ?_,
    h.corpusSize_eq, ?_, h.bounded.nodup⟩
  · rw [h.executions_eq, h.shown.length_calls, h.iterations_eq]
  · rw [hcounted.findings_eq]
    exact nodup_keys_firsts _
  · intro f hf
    rw [hcounted.findings_eq]
    exact exists_first hf
  · intro f hf
    obtain ⟨call, hcall, hfound⟩ := List.mem_filterMap.mp (List.mem_of_find?_eq_some (hfirst f hf))
    obtain ⟨v, -, rfl⟩ := Option.map_eq_some_iff.mp hfound
    exact hshort call hcall
  · exact Nat.le_trans h.bounded.size_le (Nat.le_of_eq h.capacity_eq)

/-- Requests to targets that answer never fail, and after any requests the accounts balance. -/
theorem requests_balance (config : CampaignConfig) (requests : List (Request σ))
    (hfirst : TargetsFirst requests) :
    ((∀ t ∈ added requests, t.1.Answers) →
      ∃ c, ((new config).performAll requests).result = .ok c) ∧
    ∀ c, ((new config).performAll requests).result = .ok c →
      ∃ inputs calls, Balanced config requests inputs calls c := by
  constructor
  · intro hanswers
    have hready : (new config : Campaign σ).Ready := fun t ht => absurd ht List.not_mem_nil
    exact hready.exists_performAll hanswers
  · intro c hok
    have hnew : Accounts config (added []) [] [] (new config : Campaign σ) := accounts_new config
    obtain ⟨inputs, calls, h, hrounds⟩ := hnew.performAll rfl hfirst hok
    exact ⟨inputs, calls, h.balanced hrounds⟩

/-- Two targets of one name, one of which breaks a check on every input. -/
def sampleRequests : List (Request Seen) :=
  [.addTarget (.ofRules "trip" [⟨.always, .violated ⟨.wrongValue, "tripped"⟩⟩]) .nothing,
    .addInput [0xaa, 1], .addTarget (.ofRules "trip" [⟨.longerThan 9, .rejected⟩]) .nothing,
    .run 2, .addEntries [[], [0xaa]], .run 1]

theorem requests_balance_sample :
    TargetsFirst sampleRequests ∧ (∀ t ∈ added sampleRequests, t.1.Answers) ∧
      ∃ c, ((new ⟨2, 0, 7⟩).performAll sampleRequests).result = .ok c ∧
        c.stats = ⟨3, 6, 0, 3, 1, 1⟩ ∧ c.findings.length = 1 ∧
        ∃ inputs calls, Balanced ⟨2, 0, 7⟩ sampleRequests inputs calls c := by
  have hfirst : TargetsFirst sampleRequests := by
    simp [TargetsFirst, sampleRequests, Request.isRun, Request.target?]
  have hanswers : ∀ t ∈ added sampleRequests, t.1.Answers := by
    refine List.forall_mem_cons.mpr ⟨?_, List.forall_mem_singleton.mpr ?_⟩
    · exact Target.answers_ofRules _ _
    · exact Target.answers_ofRules _ _
  obtain ⟨hok, hbalance⟩ := requests_balance ⟨2, 0, 7⟩ sampleRequests hfirst
  obtain ⟨c, hc⟩ := hok hanswers
  obtain ⟨inputs, calls, h⟩ := hbalance c hc
  have hrun : ((new ⟨2, 0, 7⟩).performAll sampleRequests).result.map Campaign.stats =
      .ok ⟨3, 6, 0, 3, 1, 1⟩ := rfl
  rw [hc] at hrun
  have hstats : c.stats = ⟨3, 6, 0, 3, 1, 1⟩ := Except.ok.inj hrun
  refine ⟨hfirst, hanswers, c, hc, hstats, ?_, inputs, calls, h⟩
  rw [← h.unique_eq, hstats]

end Campaign

end Scanline.Fuzz

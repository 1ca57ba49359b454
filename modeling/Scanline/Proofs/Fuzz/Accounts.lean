import Scanline.Proofs.Fuzz.Calls
import Scanline.Proofs.Fuzz.Corpus
import Scanline.Proofs.Fuzz.Mutation
/-! The accounts of a campaign. After any requests the counters, the findings and the corpus are what
the log of all calls says, where the log follows from the targets and the inputs alone. One round
adds one input and the answers to it, and the accounts go along. -/

namespace Scanline.Fuzz.Campaign

variable {σ : Type} {c c' : Campaign σ} {calls : List Call} {input : Input}

/-- A campaign after the verdict of one call. -/
def entered (c : Campaign σ) (call : Call) : Campaign σ :=
  match call.verdict with
  | .violated v => c.record call.input call.target v
  | .rejected => { c with stats := { c.stats with rejected := c.stats.rejected + 1 } }
  | .passed | .interesting _ => c

theorem result_enter (c : Campaign σ) (input : Input) (target : String) (v : Verdict) :
    (c.enter input target v).result = .ok (c.entered ⟨input, target, v⟩) := by
  cases v with
  | passed => rfl
  | rejected => rfl
  | interesting reason => rfl
  | violated v => rfl

theorem result_enterAll (c : Campaign σ) (input : Input) (verdicts : List (String × Verdict)) :
    (verdicts.foldlM (fun (c : Campaign σ) v => c.enter input v.1 v.2) c).result =
      .ok ((logged input verdicts).foldl entered c) := by
  induction verdicts generalizing c with
  | nil => rfl
  | cons v verdicts ih =>
    rw [List.foldlM_cons, Attempt.result_bind, result_enter, ok_bind, ih]
    rfl

theorem result_absorb (c : Campaign σ) (input : Input) (verdicts : List (String × Verdict)) :
    (c.absorb input verdicts).result =
      .ok (if worthKeeping verdicts then ((logged input verdicts).foldl entered c).keep input
        else (logged input verdicts).foldl entered c) := by
  rw [absorb, Attempt.result_bind, result_enterAll, ok_bind]
  split
  · rfl
  · rfl

/-- The counters of verdicts and the findings are those of a log. -/
structure Counted (c : Campaign σ) (calls : List Call) : Prop where
  rejected_eq : c.stats.rejected = calls.countP (·.verdict = .rejected)
  violations_eq : c.stats.violations = calls.countP (·.verdict.isViolation)
  findings_eq : c.findings = firsts (calls.filterMap Call.finding?)
  unique_eq : c.stats.unique = c.findings.length

theorem Counted.congr (h : c.Counted calls) (hrejected : c'.stats.rejected = c.stats.rejected)
    (hviolations : c'.stats.violations = c.stats.violations) (hfindings : c'.findings = c.findings)
    (hunique : c'.stats.unique = c.stats.unique) : c'.Counted calls :=
  ⟨hrejected.trans h.rejected_eq, hviolations.trans h.violations_eq,
    hfindings.trans h.findings_eq, by rw [hunique, hfindings, h.unique_eq]⟩

theorem Counted.isKnown_eq (h : c.Counted calls) (f : Finding) :
    c.isKnown f.target f.violation.kind =
      (firsts (calls.filterMap Call.finding?)).any (·.key == f.key) := by
  rw [isKnown, h.findings_eq]
  rfl

/-- What one more call adds to the counters and the findings. -/
theorem Counted.concat (h : c.Counted calls) {call : Call}
    (hrejected : c'.stats.rejected =
      c.stats.rejected + [call].countP (·.verdict = .rejected))
    (hviolations : c'.stats.violations =
      c.stats.violations + [call].countP (·.verdict.isViolation))
    (hfindings : c'.findings =
      firsts (calls.filterMap Call.finding? ++ [call].filterMap Call.finding?))
    (hunique : c'.stats.unique = c'.findings.length) : c'.Counted (calls ++ [call]) := by
  refine ⟨?_, ?_, ?_, hunique⟩
  · rw [hrejected, h.rejected_eq, List.countP_append]
  · rw [hviolations, h.violations_eq, List.countP_append]
  · rw [hfindings, List.filterMap_append]

theorem Counted.record (h : c.Counted calls) (input : Input) (target : String) (v : Violation) :
    (c.record input target v).Counted (calls ++ [⟨input, target, .violated v⟩]) := by
  have hfirsts := firsts_concat (calls.filterMap Call.finding?) ⟨input, v, target⟩
  have hknown := h.isKnown_eq ⟨input, v, target⟩
  unfold Campaign.record
  dsimp only
  split
  · rename_i htrue
    rw [if_pos (hknown.symm.trans htrue)] at hfirsts
    exact h.concat rfl rfl (h.findings_eq.trans hfirsts.symm) h.unique_eq
  · rename_i hfalse
    rw [if_neg fun htrue => hfalse (hknown.trans htrue), ← h.findings_eq] at hfirsts
    refine h.concat rfl rfl hfirsts.symm ?_
    dsimp only
    rw [h.unique_eq, List.length_append, List.length_singleton]

theorem Counted.entered (h : c.Counted calls) (call : Call) :
    (c.entered call).Counted (calls ++ [call]) := by
  obtain ⟨input, target, verdict⟩ := call
  have hnone : c.findings = firsts (calls.filterMap Call.finding? ++ []) := by
    rw [List.append_nil]
    exact h.findings_eq
  cases verdict with
  | passed => exact h.concat rfl rfl hnone h.unique_eq
  | rejected => exact h.concat rfl rfl hnone h.unique_eq
  | interesting reason => exact h.concat rfl rfl hnone h.unique_eq
  | violated v => exact h.record input target v

theorem Counted.foldl (h : c.Counted calls) (answers : List Call) :
    (answers.foldl Campaign.entered c).Counted (calls ++ answers) := by
  induction answers generalizing c calls with
  | nil => rwa [List.append_nil]
  | cons call answers ih =>
    rw [List.append_cons]
    exact ih (h.entered call)

/-- Two campaigns that differ only in what verdicts are counted into. -/
structure Aside (c c' : Campaign σ) : Prop where
  config_eq : c'.config = c.config
  targets_eq : c'.targets = c.targets
  mutator_eq : c'.mutator = c.mutator
  corpus_eq : c'.corpus = c.corpus
  iterations_eq : c'.stats.iterations = c.stats.iterations
  executions_eq : c'.stats.executions = c.stats.executions
  corpusSize_eq : c'.stats.corpusSize = c.stats.corpusSize

theorem Aside.trans {c'' : Campaign σ} (h : Aside c c') (h' : Aside c' c'') : Aside c c'' :=
  ⟨h'.config_eq.trans h.config_eq, h'.targets_eq.trans h.targets_eq,
    h'.mutator_eq.trans h.mutator_eq, h'.corpus_eq.trans h.corpus_eq,
    h'.iterations_eq.trans h.iterations_eq, h'.executions_eq.trans h.executions_eq,
    h'.corpusSize_eq.trans h.corpusSize_eq⟩

theorem aside_counts (c : Campaign σ) (rejected violations unique : Nat)
    (findings : List Finding) :
    Aside c { c with stats := { c.stats with rejected, violations, unique }, findings } :=
  ⟨rfl, rfl, rfl, rfl, rfl, rfl, rfl⟩

theorem aside_record (c : Campaign σ) (input : Input) (target : String) (v : Violation) :
    Aside c (c.record input target v) := by
  unfold Campaign.record
  dsimp only
  split
  · exact aside_counts c _ _ _ _
  · exact aside_counts c _ _ _ _

theorem aside_entered (c : Campaign σ) (call : Call) : Aside c (c.entered call) := by
  unfold entered
  split
  · exact aside_record c call.input call.target _
  · exact aside_counts c _ _ _ _
  · exact aside_counts c _ _ _ _
  · exact aside_counts c _ _ _ _

theorem aside_foldl (c : Campaign σ) (answers : List Call) :
    Aside c (answers.foldl entered c) := by
  induction answers generalizing c with
  | nil => exact aside_counts c _ _ _ _
  | cons call answers ih => exact (aside_entered c call).trans (ih (c.entered call))

theorem length_le_of_nextInput {mutator : Mutator} (h : c.nextInput = .ok (input, mutator)) :
    input.length ≤ c.config.maxInput := by
  obtain ⟨_, -, h⟩ := exists_of_bind_eq_ok h
  obtain ⟨mutated, -, h⟩ := exists_of_bind_eq_ok h
  obtain ⟨rfl, -⟩ := Prod.mk.inj (Except.ok.inj h)
  exact List.length_take_le _ _

/-- What the first half of a round leaves. -/
theorem exists_of_trial {verdicts : List (String × Verdict)}
    (h : c.trial.result = .ok ((input, verdicts), c')) :
    ∃ mutator ts, c.nextInput = .ok (input, mutator) ∧
      Answered input c.targets (logged input verdicts) ts ∧
      c' = { c with
        targets := ts
        mutator
        stats := { c.stats with
          iterations := c.stats.iterations + 1
          executions := c.stats.executions + (logged input verdicts).length } } := by
  rw [trial, Attempt.result_bind] at h
  obtain ⟨⟨input', mutator⟩, hinput, h⟩ := exists_of_bind_eq_ok h
  rw [Attempt.result_bind] at h
  obtain ⟨⟨verdicts', ts⟩, hjudge, h⟩ := exists_of_bind_eq_ok h
  obtain ⟨heq, rfl⟩ := Prod.mk.inj (Except.ok.inj h)
  obtain ⟨rfl, rfl⟩ := Prod.mk.inj heq
  refine ⟨mutator, ts, hinput, answered_of_judgeAll hjudge, ?_⟩
  rw [logged, List.length_map]

/-- A campaign is what the log of its calls says. -/
structure Accounts (config : CampaignConfig) (start : List (Target σ × σ)) (inputs : List Input)
    (calls : List Call) (c : Campaign σ) : Prop where
  config_eq : c.config = config
  shown : Shown start inputs calls c.targets
  short : ∀ input ∈ inputs, input.length ≤ config.maxInput
  iterations_eq : c.stats.iterations = inputs.length
  executions_eq : c.stats.executions = calls.length
  counted : c.Counted calls
  capacity_eq : c.corpus.capacity = corpusCapacity
  bounded : c.corpus.Bounded
  corpusSize_eq : c.stats.corpusSize = c.corpus.size

variable {config : CampaignConfig} {start : List (Target σ × σ)} {inputs : List Input}

theorem accounts_new (config : CampaignConfig) :
    Accounts config [] [] [] (new config : Campaign σ) :=
  ⟨rfl, .nil, fun _ h => absurd h List.not_mem_nil, rfl, rfl, ⟨rfl, rfl, rfl, rfl⟩, rfl,
    Corpus.bounded_empty _, rfl⟩

namespace Accounts
variable (h : Accounts config start inputs calls c)
include h

theorem keep (input : Input) : Accounts config start inputs calls (c.keep input) :=
  ⟨h.config_eq, h.shown, h.short, h.iterations_eq, h.executions_eq,
    h.counted.congr rfl rfl rfl rfl,
    Corpus.capacity_add.trans h.capacity_eq, h.bounded.add, rfl⟩

theorem addEntries (entries : List Input) :
    Accounts config start inputs calls (c.addEntries entries) :=
  ⟨h.config_eq, h.shown, h.short, h.iterations_eq, h.executions_eq,
    h.counted.congr rfl rfl rfl rfl,
    h.capacity_eq, h.bounded, h.corpusSize_eq⟩

/-- Before the first round a target joins the others. -/
theorem addTarget (hnone : inputs = []) (t : Target σ) (s : σ) :
    Accounts config (start ++ [(t, s)]) inputs calls (c.addTarget t s) := by
  subst hnone
  obtain ⟨rfl, hstart⟩ := h.shown.eq_of_nil
  refine ⟨h.config_eq, ?_, h.short, h.iterations_eq, h.executions_eq,
    h.counted.congr rfl rfl rfl rfl,
    h.capacity_eq, h.bounded, h.corpusSize_eq⟩
  rw [Campaign.addTarget, hstart]
  exact .nil

/-- One round shows one more input to all targets. -/
theorem step (hok : c.step.result = .ok c') : ∃ input answers,
    Accounts config start (inputs ++ [input]) (calls ++ answers) c' := by
  rw [Campaign.step, Attempt.result_bind] at hok
  obtain ⟨⟨⟨input, verdicts⟩, tried⟩, htrial, hok⟩ := exists_of_bind_eq_ok hok
  obtain ⟨mutator, ts, hinput, hanswered, htried⟩ := exists_of_trial htrial
  have hcounted : tried.Counted calls := by
    subst htried
    exact h.counted.congr rfl rfl rfl rfl
  have haside := aside_foldl tried (logged input verdicts)
  have hlength := length_le_of_nextInput hinput
  rw [h.config_eq] at hlength
  have haccounts : Accounts config start (inputs ++ [input]) (calls ++ logged input verdicts)
      ((logged input verdicts).foldl entered tried) := by
    subst htried
    refine ⟨haside.config_eq.trans h.config_eq, ?_, ?_, ?_, ?_, hcounted.foldl _, ?_, ?_, ?_⟩
    · rw [haside.targets_eq]
      exact .snoc h.shown hanswered
    · exact List.forall_mem_append.mpr ⟨h.short, List.forall_mem_singleton.mpr hlength⟩
    · rw [haside.iterations_eq, List.length_append, List.length_singleton, ← h.iterations_eq]
    · rw [haside.executions_eq, List.length_append, ← h.executions_eq]
    · rw [haside.corpus_eq]
      exact h.capacity_eq
    · rw [haside.corpus_eq]
      exact h.bounded
    · rw [haside.corpusSize_eq, haside.corpus_eq]
      exact h.corpusSize_eq
  refine ⟨input, logged input verdicts, ?_⟩
  rw [result_absorb] at hok
  rw [← Except.ok.inj hok]
  split
  · exact haccounts.keep input
  · exact haccounts

theorem run {n : Nat} (hok : (c.run n).result = .ok c') : ∃ inputs' calls',
    Accounts config start inputs' calls' c' ∧ inputs'.length = inputs.length + n := by
  rw [Campaign.run] at hok
  induction n generalizing c inputs calls with
  | zero =>
    rw [← Except.ok.inj hok]
    exact ⟨inputs, calls, h, rfl⟩
  | succ n ih =>
    rw [Attempt.result_iterate_succ] at hok
    obtain ⟨next, hnext, hok⟩ := exists_of_bind_eq_ok hok
    obtain ⟨input, answers, hstep⟩ := h.step hnext
    obtain ⟨inputs', calls', hrun, hlength⟩ := ih hstep hok
    refine ⟨inputs', calls', hrun, ?_⟩
    rw [hlength, List.length_append, List.length_singleton]
    omega

end Accounts

end Scanline.Fuzz.Campaign

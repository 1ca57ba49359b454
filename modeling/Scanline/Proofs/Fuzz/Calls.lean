import Scanline.Fuzz.Campaign
import Scanline.Proofs.Results
/-! What targets answer to inputs, apart from any campaign. A log of calls follows from the targets,
the states that they keep and the inputs alone, and its findings are the first violations of each
target and kind. -/

namespace Scanline.Fuzz

/-- One input given to one target, with the verdict. -/
structure Call where
  input : Input
  target : String
  verdict : Verdict
deriving DecidableEq

/-- A call that broke a check, as it is reported. -/
def Call.finding? (c : Call) : Option Finding :=
  c.verdict.violation?.map fun v => ⟨c.input, v, c.target⟩

/-- What tells findings apart. -/
def Finding.key (f : Finding) : String × ViolationKind := (f.target, f.violation.kind)

/-- The first finding of each target and kind, in the order of the first occurrences. -/
def firsts : List Finding → List Finding
  | [] => []
  | f :: rest => f :: (firsts rest).filter fun g => g.key != f.key

section Firsts
variable {found : List Finding} {f : Finding}

/-- The findings that are kept are the first of their target and kind. -/
theorem mem_firsts : f ∈ firsts found ↔ found.find? (·.key == f.key) = some f := by
  induction found with
  | nil => exact iff_of_false List.not_mem_nil nofun
  | cons g found ih =>
    rw [firsts, List.mem_cons, List.mem_filter, ih, List.find?_cons]
    by_cases h : g.key = f.key
    · rw [beq_iff_eq.mpr h]
      simp [h, eq_comm]
    · have hne : f ≠ g := fun heq => h (heq ▸ rfl)
      rw [beq_eq_false_iff_ne.mpr h]
      simp [hne, Ne.symm h]

theorem nodup_keys_firsts (found : List Finding) : ((firsts found).map Finding.key).Nodup := by
  induction found with
  | nil => exact .nil
  | cons f found ih =>
    rw [firsts, List.map_cons]
    refine List.nodup_cons.mpr ⟨?_, ih.sublist (List.filter_sublist.map _)⟩
    rw [List.mem_map]
    rintro ⟨g, hg, hkey⟩
    exact bne_iff_ne.mp (List.mem_filter.mp hg).2 hkey

theorem exists_first (h : f ∈ found) : ∃ g ∈ firsts found, g.key = f.key := by
  induction found with
  | nil => exact absurd h List.not_mem_nil
  | cons g found ih =>
    by_cases hkey : g.key = f.key
    · exact ⟨g, List.mem_cons_self, hkey⟩
    rcases List.mem_cons.mp h with rfl | hmem
    · exact absurd rfl hkey
    · obtain ⟨g', hg', hsame⟩ := ih hmem
      refine ⟨g', List.mem_cons_of_mem g (List.mem_filter.mpr ⟨hg', ?_⟩), hsame⟩
      rw [hsame]
      exact bne_iff_ne.mpr (Ne.symm hkey)

/-- A further finding is kept unless its target and kind are there already. -/
theorem firsts_concat (found : List Finding) (f : Finding) :
    firsts (found ++ [f]) = if (firsts found).any (·.key == f.key) then firsts found
      else firsts found ++ [f] := by
  induction found with
  | nil => rfl
  | cons g found ih =>
    rw [List.cons_append, firsts, ih, firsts, List.any_cons]
    by_cases hkey : g.key = f.key
    · rw [beq_iff_eq.mpr hkey, Bool.true_or, if_pos rfl]
      split
      · rfl
      · rw [List.filter_append, List.filter_cons_of_neg (by simp [hkey]), List.filter_nil,
          List.append_nil]
    · have hany : ((firsts found).filter fun h => h.key != g.key).any (·.key == f.key) =
          (firsts found).any (·.key == f.key) := by
        rw [Bool.eq_iff_iff, List.any_eq_true, List.any_eq_true]
        constructor
        · rintro ⟨h, hh, hf⟩
          exact ⟨h, (List.mem_filter.mp hh).1, hf⟩
        · rintro ⟨h, hh, hf⟩
          refine ⟨h, List.mem_filter.mpr ⟨hh, ?_⟩, hf⟩
          rw [beq_iff_eq.mp hf]
          exact bne_iff_ne.mpr (Ne.symm hkey)
      rw [beq_eq_false_iff_ne.mpr hkey, Bool.false_or, hany]
      split
      · rfl
      · rw [List.filter_append, List.filter_cons_of_pos (by simp [Ne.symm hkey]), List.filter_nil,
          List.cons_append]

end Firsts

variable {σ : Type}

/-- What targets answer to an input one after the other, each in its state, and the states after a
reset. -/
inductive Answered (input : Input) : List (Target σ × σ) → List Call → List (Target σ × σ) → Prop
  | nil : Answered input [] [] []
  | cons {t : Target σ} {s s' : σ} {v : Verdict} {ts ts' : List (Target σ × σ)}
      {calls : List Call} : (t.fuzz input s).result = .ok (v, s') → Answered input ts calls ts' →
      Answered input ((t, s) :: ts) (⟨input, t.nameIn s', v⟩ :: calls) ((t, t.reset s') :: ts')

/-- What targets answer to a series of inputs. -/
inductive Shown (start : List (Target σ × σ)) :
    List Input → List Call → List (Target σ × σ) → Prop
  | nil : Shown start [] [] start
  | snoc {inputs : List Input} {input : Input} {calls answers : List Call}
      {ts ts' : List (Target σ × σ)} : Shown start inputs calls ts → Answered input ts answers ts' →
      Shown start (inputs ++ [input]) (calls ++ answers) ts'

/-- The target answers every input in every state. -/
def Target.Answers (t : Target σ) : Prop :=
  ∀ input s, ∃ v s', (t.fuzz input s).result = .ok (v, s')

variable {input : Input} {start ts ts' : List (Target σ × σ)} {inputs : List Input}
  {calls : List Call}

namespace Answered

theorem length_calls (h : Answered input ts calls ts') : calls.length = ts.length := by
  induction h with
  | nil => rfl
  | cons _ _ ih => rw [List.length_cons, List.length_cons, ih]

theorem map_fst (h : Answered input ts calls ts') : ts'.map Prod.fst = ts.map Prod.fst := by
  induction h with
  | nil => rfl
  | cons _ _ ih => rw [List.map_cons, List.map_cons, ih]

theorem input_eq (h : Answered input ts calls ts') : ∀ call ∈ calls, call.input = input := by
  induction h with
  | nil => exact fun _ hcall => absurd hcall List.not_mem_nil
  | cons _ _ ih => exact List.forall_mem_cons.mpr ⟨rfl, ih⟩

end Answered

namespace Shown

theorem map_fst (h : Shown start inputs calls ts) : ts.map Prod.fst = start.map Prod.fst := by
  induction h with
  | nil => rfl
  | snoc _ hanswered ih => rw [hanswered.map_fst, ih]

theorem length_calls (h : Shown start inputs calls ts) :
    calls.length = inputs.length * start.length := by
  induction h with
  | nil => rw [List.length_nil, List.length_nil, Nat.zero_mul]
  | snoc hshown hanswered ih =>
    have hlength := congrArg List.length hshown.map_fst
    rw [List.length_map, List.length_map] at hlength
    rw [List.length_append, List.length_append, ih, hanswered.length_calls, hlength,
      List.length_singleton, Nat.succ_mul]

theorem input_mem (h : Shown start inputs calls ts) : ∀ call ∈ calls, call.input ∈ inputs := by
  induction h with
  | nil => exact fun _ hcall => absurd hcall List.not_mem_nil
  | snoc _ hanswered ih =>
    intro call hcall
    rcases List.mem_append.mp hcall with hcall | hcall
    · exact List.mem_append_left _ (ih call hcall)
    · rw [hanswered.input_eq call hcall]
      exact List.mem_append_right _ List.mem_cons_self

theorem eq_of_nil (h : Shown start [] calls ts) : calls = [] ∧ ts = start := by
  generalize hinputs : [] = inputs at h
  cases h with
  | nil => exact ⟨rfl, rfl⟩
  | snoc _ _ => exact absurd hinputs.symm (List.append_ne_nil_of_right_ne_nil _ nofun)

end Shown

namespace Campaign

/-- The verdicts on an input as calls. -/
def logged (input : Input) (verdicts : List (String × Verdict)) : List Call :=
  verdicts.map fun v => ⟨input, v.1, v.2⟩

theorem answered_of_judgeAll {verdicts : List (String × Verdict)}
    (h : (judgeAll input ts).result = .ok (verdicts, ts')) :
    Answered input ts (logged input verdicts) ts' := by
  induction ts generalizing verdicts ts' with
  | nil =>
    obtain ⟨rfl, rfl⟩ := Prod.mk.inj (Except.ok.inj h)
    exact .nil
  | cons entry ts ih =>
    obtain ⟨t, s⟩ := entry
    rw [judgeAll, Attempt.result_bind] at h
    obtain ⟨⟨v, s'⟩, hfuzz, h⟩ := exists_of_bind_eq_ok h
    rw [Attempt.result_bind] at h
    obtain ⟨⟨vs, rest⟩, hrest, h⟩ := exists_of_bind_eq_ok h
    obtain ⟨rfl, rfl⟩ := Prod.mk.inj (Except.ok.inj h)
    exact .cons hfuzz (ih hrest)

theorem exists_judgeAll (input : Input) (h : ∀ t ∈ ts, t.1.Answers) :
    ∃ r, (judgeAll input ts).result = .ok r := by
  induction ts with
  | nil => exact ⟨_, rfl⟩
  | cons entry ts ih =>
    obtain ⟨t, s⟩ := entry
    obtain ⟨v, s', hfuzz⟩ := h (t, s) List.mem_cons_self input s
    obtain ⟨⟨vs, rest⟩, hrest⟩ := ih fun t' ht' => h t' (List.mem_cons_of_mem _ ht')
    refine ⟨((t.nameIn s', v) :: vs, (t, t.reset s') :: rest), ?_⟩
    dsimp only at hfuzz
    simp only [judgeAll, Attempt.result_bind, hfuzz, hrest, ok_bind, Attempt.result_pure]

end Campaign

end Scanline.Fuzz

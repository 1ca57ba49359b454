import Scanline.Fuzz.Shrink
import Scanline.Proofs.Fuzz.Requests
/-! What shrinking an input leaves of it. A reduction takes bytes away and sets others to zero, and
it never makes an input longer or gives it more bytes other than zero. Whatever a target says, a
round answers its input or a reduction of it that the target, freshly reset, found to break a check.
A round that changes the input makes it smaller, and so rounds come to an end by themselves: there
are never more of them than the input has bytes and bytes other than zero. The limit on the attempts
is only another place to stop. -/

namespace Scanline.Fuzz

namespace Input

/-- Some bytes are taken away, and some of the others become zero. -/
inductive Reduces : Input → Input → Prop
  | nil : Reduces [] []
  | delete {a c : Input} (b : UInt8) : Reduces a c → Reduces (b :: a) c
  | keep {a c : Input} (b : UInt8) : Reduces a c → Reduces (b :: a) (b :: c)
  | zero {a c : Input} (b : UInt8) : Reduces a c → Reduces (b :: a) (0 :: c)

variable {a b c : Input}

theorem weight_zero_cons (a : Input) : weight (0 :: a) = a.weight :=
  List.countP_cons_of_neg (by decide)

theorem weight_le_cons (b : UInt8) (a : Input) : a.weight ≤ weight (b :: a) :=
  (List.sublist_cons_self b a).countP_le

namespace Reduces

theorem refl (a : Input) : Reduces a a := by
  induction a with
  | nil => exact .nil
  | cons b a ih => exact .keep b ih

theorem trans (hab : Reduces a b) (hbc : Reduces b c) : Reduces a c := by
  induction hab generalizing c with
  | nil => exact hbc
  | delete x _ ih => exact .delete x (ih hbc)
  | keep x _ ih =>
    cases hbc with
    | delete _ h => exact .delete x (ih h)
    | keep _ h => exact .keep x (ih h)
    | zero _ h => exact .zero x (ih h)
  | zero x _ ih =>
    cases hbc with
    | delete _ h => exact .delete x (ih h)
    | keep _ h => exact .zero x (ih h)
    | zero _ h => exact .zero x (ih h)

theorem length_le (h : Reduces a b) : b.length ≤ a.length := by
  induction h with
  | nil => exact Nat.le_refl _
  | delete x _ ih => exact Nat.le_succ_of_le ih
  | keep x _ ih => exact Nat.succ_le_succ ih
  | zero x _ ih => exact Nat.succ_le_succ ih

theorem weight_le (h : Reduces a b) : b.weight ≤ a.weight := by
  induction h with
  | nil => exact Nat.le_refl _
  | delete x _ ih => exact Nat.le_trans ih (weight_le_cons x _)
  | keep x _ ih =>
    unfold weight at *
    rw [List.countP_cons, List.countP_cons]
    exact Nat.add_le_add_right ih _
  | zero x _ ih =>
    rw [weight_zero_cons]
    exact Nat.le_trans ih (weight_le_cons x _)

theorem of_sublist (h : b.Sublist a) : Reduces a b := by
  induction h with
  | slnil => exact .nil
  | cons x _ ih => exact .delete x ih
  | cons_cons x _ ih => exact .keep x ih

end Reduces

theorem reduces_without (a : Input) (start size : Nat) : Reduces a (a.without start size) := by
  apply Reduces.of_sublist
  have hdrop : (a.drop (start + size)).Sublist (a.drop start) :=
    List.drop_sublist_drop_left a (Nat.le_add_right _ _)
  have happend := (List.Sublist.refl (a.take start)).append hdrop
  rwa [List.take_append_drop] at happend

theorem reduces_set_zero (a : Input) (i : Nat) : Reduces a (a.set i 0) := by
  induction a generalizing i with
  | nil => exact .nil
  | cons b a ih =>
    cases i with
    | zero => exact .zero b (Reduces.refl a)
    | succ i => exact .keep b (ih i)

/-- How far an input can be reduced. -/
def slack (a : Input) : Nat := a.length + a.weight

/-- A reduction to something smaller takes away at least one byte or one value. -/
theorem Reduces.slack_lt (h : Reduces a b) (hsmaller : b.Smaller a) : b.slack < a.slack := by
  have hweight := h.weight_le
  unfold slack
  cases hsmaller with
  | inl hlength => omega
  | inr hlast => omega

end Input

namespace Target

variable {σ α β : Type} {t : Target σ} {input a b : Input} {p q : Probing σ}

/-- The target itself fails somewhere. -/
def Fails (t : Target σ) (e : Failure) : Prop := ∃ input s, (t.fuzz input s).result = .error e

/-- The target, freshly reset, finds a violation in some state. -/
def Breaks (t : Target σ) (input : Input) : Prop :=
  ∃ s v s', (t.fuzz input (t.reset s)).result = .ok (v, s') ∧ v.isViolation = true

/-- What the target says after a reset depends on the input alone. -/
def Judges (t : Target σ) (judge : Input → Verdict) : Prop :=
  ∀ input s v s', (t.fuzz input (t.reset s)).result = .ok (v, s') → v = judge input

theorem Judges.isViolation {judge : Input → Verdict} (h : t.Judges judge) (hb : t.Breaks input) :
    (judge input).isViolation = true := by
  obtain ⟨s, v, s', hok, hv⟩ := hb
  exact h input s v s' hok ▸ hv

theorem Answers.not_fails (h : t.Answers) (e : Failure) : ¬t.Fails e := by
  intro ⟨input, s, herr⟩
  obtain ⟨v, s', hok⟩ := h input s
  exact nomatch hok.symm.trans herr

/-- Whatever a probe answers has a property, and it fails only as the target does. -/
structure Ensures (t : Target σ) (x : Probe σ α) (P : α → Prop) : Prop where
  answer : ∀ {p a q}, (x.run p).result = .ok (a, q) → P a
  failure : ∀ {p e}, (x.run p).result = .error e → t.Fails e

section Chains
variable {x : Probe σ α} {f : α → Probe σ β} {P : α → Prop} {Q : β → Prop}

theorem result_bind (x : Probe σ α) (f : α → Probe σ β) (p : Probing σ) :
    ((x >>= f).run p).result = (x.run p).result >>= fun r => ((f r.1).run r.2).result := by
  rw [StateT.run_bind, Attempt.result_bind]

theorem ensures_pure {a : α} (h : P a) : t.Ensures (pure a) P where
  answer hok := by
    obtain ⟨rfl, -⟩ := Prod.mk.inj (Except.ok.inj hok)
    exact h
  failure herr := nomatch herr

/-- The next step may build on what the step before it ensures. -/
theorem Ensures.bind (hx : t.Ensures x P) (hf : ∀ a, P a → t.Ensures (f a) Q) :
    t.Ensures (x >>= f) Q where
  answer hok := by
    rw [result_bind] at hok
    obtain ⟨⟨a, q⟩, hok, hnext⟩ := exists_of_bind_eq_ok hok
    exact (hf a (hx.answer hok)).answer hnext
  failure {p e} herr := by
    rw [result_bind] at herr
    cases hrun : (x.run p).result with
    | error e' =>
      rw [hrun] at herr
      cases herr
      exact hx.failure hrun
    | ok r =>
      rw [hrun] at herr
      exact (hf r.1 (hx.answer hrun)).failure herr

end Chains

theorem result_stillFails (t : Target σ) (input : Input) (p : Probing σ) :
    ((t.stillFails input).run p).result = (t.fuzz input (t.reset p.state)).result.map
      fun r => (r.1.isViolation, ⟨r.2, p.attempts + 1⟩) :=
  Attempt.result_bind _ _

theorem ensures_stillFails (t : Target σ) (input : Input) :
    t.Ensures (t.stillFails input) fun fails => fails = true → t.Breaks input where
  answer {p fails q} hok := by
    intro hfails
    rw [result_stillFails] at hok
    obtain ⟨r, hfuzz, hr⟩ := exists_of_map_eq_ok hok
    exact ⟨p.state, r.1, r.2, hfuzz, (Prod.mk.inj hr).1.trans hfails⟩
  failure {p e} herr := by
    rw [result_stillFails] at herr
    exact ⟨input, _, eq_error_of_map_eq_error herr⟩

/-- What a round may answer: its input or a reduction of it that breaks a check. -/
def Kept (t : Target σ) (a b : Input) : Prop := b = a ∨ a.Reduces b ∧ t.Breaks b

theorem Kept.reduces (h : t.Kept a b) : a.Reduces b := by
  rcases h with rfl | ⟨hreduces, -⟩
  · exact Input.Reduces.refl b
  · exact hreduces

theorem Kept.lower {c : Input} (h : t.Kept a b) (hreduces : b.Reduces c) (hc : t.Breaks c) :
    t.Kept a c := .inr ⟨h.reduces.trans hreduces, hc⟩

theorem Kept.trans {c : Input} (h : t.Kept a b) (h' : t.Kept b c) : t.Kept a c := by
  rcases h' with rfl | ⟨hreduces, hc⟩
  · exact h
  · exact h.lower hreduces hc

theorem cut_cons_of_lt {start size : Nat} {rest : List (Nat × Nat)}
    (h : (input.without start size).length < input.length) :
    t.cut input ((start, size) :: rest) = (do
      if ← t.stillFails (input.without start size) then
        return (Reduct.self input).lower (input.without start size) (.inl h)
      else t.cut input rest) := by
  rw [cut, dif_pos h]

theorem cut_cons_of_not_lt {start size : Nat} {rest : List (Nat × Nat)}
    (h : ¬(input.without start size).length < input.length) :
    t.cut input ((start, size) :: rest) = t.cut input rest := by
  rw [cut, dif_neg h]

theorem blank_cons_of_eq {i : Nat} {rest : List Nat} {r : Reduct input}
    (h : r.value.set i 0 = r.value) : t.blank (i :: rest) r = t.blank rest r := by
  rw [blank]
  exact dif_pos h

theorem blank_cons_of_ne {i : Nat} {rest : List Nat} {r : Reduct input}
    (h : r.value.set i 0 ≠ r.value) :
    t.blank (i :: rest) r = (do
      if ← t.stillFails (r.value.set i 0) then
        t.blank rest (r.lower (r.value.set i 0) (Input.smaller_set_zero h))
      else t.blank rest r) := by
  rw [blank]
  exact dif_neg h

theorem ensures_cut (t : Target σ) (input : Input) (places : List (Nat × Nat)) :
    t.Ensures (t.cut input places) fun r => t.Kept input r.value := by
  induction places with
  | nil => exact ensures_pure (.inl rfl)
  | cons place rest ih =>
    obtain ⟨start, size⟩ := place
    by_cases h : (input.without start size).length < input.length
    · rw [cut_cons_of_lt h]
      apply (ensures_stillFails t _).bind
      intro fails hbreaks
      cases fails with
      | false => exact ih
      | true => exact ensures_pure (.inr ⟨input.reduces_without start size, hbreaks rfl⟩)
    · rw [cut_cons_of_not_lt h]
      exact ih

/-- Along the places the last reduct that was accepted is the one that is kept. -/
theorem ensures_blank (t : Target σ) (places : List Nat) {r : Reduct input}
    (hr : t.Kept input r.value) :
    t.Ensures (t.blank places r) fun r' => t.Kept input r'.value := by
  induction places generalizing r with
  | nil => exact ensures_pure hr
  | cons i rest ih =>
    by_cases h : r.value.set i 0 = r.value
    · rw [blank_cons_of_eq h]
      exact ih hr
    · rw [blank_cons_of_ne h]
      apply (ensures_stillFails t _).bind
      intro fails hbreaks
      cases fails with
      | false => exact ih hr
      | true => exact ih (hr.lower (r.value.reduces_set_zero i) (hbreaks rfl))

theorem ensures_shrinkOnce (t : Target σ) (input : Input) :
    t.Ensures (t.shrinkOnce input) fun r => t.Kept input r.value :=
  (ensures_cut t input _).bind fun _ hr => ensures_blank t _ hr

/-- A round that changes its input, after which shrinking goes on. -/
def Round (t : Target σ) (x y : Input × Probing σ) : Prop :=
  ∃ r, ((t.shrinkOnce x.1).run x.2).result = .ok (r, y.2) ∧ r.value = y.1 ∧ y.1 ≠ x.1

/-- A number of such rounds, whatever the attempts. -/
inductive Rounds (t : Target σ) : Nat → Input × Probing σ → Input × Probing σ → Prop
  | refl (x : Input × Probing σ) : Rounds t 0 x x
  | cons {n : Nat} {x y z : Input × Probing σ} :
      t.Round x y → Rounds t n y z → Rounds t (n + 1) x z

/-- A round that leaves its input as it is. -/
def Settled (t : Target σ) (x : Input × Probing σ) (q : Probing σ) : Prop :=
  ∃ r, ((t.shrinkOnce x.1).run x.2).result = .ok (r, q) ∧ r.value = x.1

section Rounds
variable {n : Nat} {x y z : Input × Probing σ}

theorem Round.kept (h : t.Round x y) : t.Kept x.1 y.1 := by
  obtain ⟨r, hok, hr, -⟩ := h
  exact hr ▸ (ensures_shrinkOnce t x.1).answer hok

theorem Round.smaller (h : t.Round x y) : y.1.Smaller x.1 := by
  obtain ⟨r, -, hr, hne⟩ := h
  exact hr ▸ r.reduced.resolve_left (hr ▸ hne)

theorem Round.slack_lt (h : t.Round x y) : y.1.slack < x.1.slack :=
  h.kept.reduces.slack_lt h.smaller

theorem Rounds.kept (h : t.Rounds n x y) : t.Kept x.1 y.1 := by
  induction h with
  | refl x => exact .inl rfl
  | cons hround _ ih => exact hround.kept.trans ih

theorem Rounds.add_slack_le (h : t.Rounds n x y) : n + y.1.slack ≤ x.1.slack := by
  induction h with
  | refl x => exact Nat.le_of_eq (Nat.zero_add _)
  | cons hround _ ih =>
    have := hround.slack_lt
    omega

/-- Rounds come to an end without any limit on the attempts: a round that changes nothing is reached,
unless the target fails. -/
theorem exists_last_round (t : Target σ) (x : Input × Probing σ) :
    ∃ n y, t.Rounds n x y ∧
      ((∃ q, t.Settled y q) ∨ ∃ e, ((t.shrinkOnce y.1).run y.2).result = .error e) := by
  induction hslack : x.1.slack using Nat.strong_induction_on generalizing x with
  | h slack ih =>
    cases hrun : ((t.shrinkOnce x.1).run x.2).result with
    | error e => exact ⟨0, x, .refl x, .inr ⟨e, hrun⟩⟩
    | ok answer =>
      obtain ⟨r, q⟩ := answer
      by_cases hr : r.value = x.1
      · exact ⟨0, x, .refl x, .inl ⟨q, r, hrun, hr⟩⟩
      · have hround : t.Round x (r.value, q) := ⟨r, hrun, rfl, hr⟩
        obtain ⟨n, y, hrounds, hlast⟩ := ih _ (hslack ▸ hround.slack_lt) (r.value, q) rfl
        exact ⟨n + 1, y, .cons hround hrounds, hlast⟩

end Rounds

theorem shrink_eq (t : Target σ) (input : Input) :
    t.shrink input = (do
      if maxAttempts ≤ (← get).attempts then return input
      else do
        let r ← t.shrinkOnce input
        if r.value = input then return input else t.shrink r.value) := by
  rw [shrink]

theorem run_shrink_of_le (input : Input) (h : maxAttempts ≤ p.attempts) :
    ((t.shrink input).run p).result = .ok (input, p) := by
  rw [shrink_eq, result_bind]
  exact congrArg (fun x : Probe σ Input => (x.run p).result) (if_pos h)

theorem run_shrink_of_lt (input : Input) (h : p.attempts < maxAttempts) :
    ((t.shrink input).run p).result = ((t.shrinkOnce input).run p).result >>= fun r =>
      if r.1.value = input then .ok (input, r.2) else ((t.shrink r.1.value).run r.2).result := by
  rw [shrink_eq, result_bind]
  trans
  · exact congrArg (fun x : Probe σ Input => (x.run p).result) (if_neg (Nat.not_le.mpr h))
  rw [result_bind]
  congr 1
  funext r
  split
  · rfl
  · rfl

/-- With the limit the rounds stop where one changes nothing or where the attempts are used up. -/
theorem exists_rounds_of_shrink {out : Input} (h : ((t.shrink input).run p).result = .ok (out, q)) :
    ∃ n z, t.Rounds n (input, p) (out, z) ∧
      (maxAttempts ≤ z.attempts ∧ q = z ∨ z.attempts < maxAttempts ∧ t.Settled (out, z) q) := by
  induction input using shrink.induct generalizing p with
  | case1 input ih =>
    rcases Nat.lt_or_ge p.attempts maxAttempts with hlt | hle
    · rw [run_shrink_of_lt input hlt] at h
      obtain ⟨⟨r, z⟩, hrun, h⟩ := exists_of_bind_eq_ok h
      by_cases hr : r.value = input
      · rw [if_pos hr] at h
        obtain ⟨rfl, rfl⟩ := Prod.mk.inj (Except.ok.inj h)
        exact ⟨0, p, .refl _, .inr ⟨hlt, r, hrun, hr⟩⟩
      · rw [if_neg hr] at h
        obtain ⟨n, z', hrounds, hstop⟩ := ih r hr h
        exact ⟨n + 1, z', .cons ⟨r, hrun, rfl, hr⟩ hrounds, hstop⟩
    · rw [run_shrink_of_le input hle] at h
      obtain ⟨rfl, rfl⟩ := Prod.mk.inj (Except.ok.inj h)
      exact ⟨0, p, .refl _, .inl ⟨hle, rfl⟩⟩

theorem fails_of_shrink {e : Failure} (h : ((t.shrink input).run p).result = .error e) :
    t.Fails e := by
  induction input using shrink.induct generalizing p with
  | case1 input ih =>
    rcases Nat.lt_or_ge p.attempts maxAttempts with hlt | hle
    · rw [run_shrink_of_lt input hlt] at h
      rcases of_bind_eq_error h with hround | ⟨⟨r, z⟩, -, h⟩
      · exact (ensures_shrinkOnce t input).failure hround
      · by_cases hr : r.value = input
        · rw [if_pos hr] at h
          cases h
        · rw [if_neg hr] at h
          exact ih r hr h
    · rw [run_shrink_of_le input hle] at h
      cases h

/-- What is left of an input is sound: bytes went away or became zero, and what a check was broken on
still breaks one. -/
structure Sound (t : Target σ) (input out : Input) : Prop where
  reduces : input.Reduces out
  breaks : out = input ∨ t.Breaks out
  judged : ∀ judge, t.Judges judge → out = input ∨ (judge out).isViolation = true
  violation : ∀ judge, t.Judges judge →
    (judge input).isViolation = true → (judge out).isViolation = true

theorem Kept.sound {out : Input} (h : t.Kept input out) : t.Sound input out := by
  have hbreaks : out = input ∨ t.Breaks out := h.imp_right And.right
  have hjudged : ∀ judge, t.Judges judge → out = input ∨ (judge out).isViolation = true :=
    fun judge hjudge => hbreaks.imp_right hjudge.isViolation
  refine ⟨h.reduces, hbreaks, hjudged, ?_⟩
  intro judge hjudge hviolation
  rcases hjudged judge hjudge with rfl | hout
  · exact hviolation
  · exact hout

/-- Shrinking comes to an end by itself and is sound, whatever the target and however often it was
asked before. Every round that changes the input makes it smaller, so that without the limit on the
attempts too there are at most as many rounds as the input has bytes and bytes other than zero, and
then one that changes nothing. The limit only stops sooner, and shrinking fails only as the target
does. -/
theorem shrink_sound (t : Target σ) (input : Input) (p : Probing σ) :
    (∀ x y, t.Round x y → y.1.Smaller x.1) ∧
    (∃ n y, t.Rounds n (input, p) y ∧
      ((∃ q, t.Settled y q) ∨ ∃ e, ((t.shrinkOnce y.1).run y.2).result = .error e ∧ t.Fails e)) ∧
    (∀ n y, t.Rounds n (input, p) y →
      n + y.1.length + y.1.weight ≤ input.length + input.weight ∧ t.Sound input y.1) ∧
    (∀ e, ((t.shrink input).run p).result = .error e → t.Fails e) ∧
    (t.Answers → ∃ out q, ((t.shrink input).run p).result = .ok (out, q)) ∧
    ∀ out q, ((t.shrink input).run p).result = .ok (out, q) → t.Sound input out ∧
      ∃ n z, t.Rounds n (input, p) (out, z) ∧
        (maxAttempts ≤ z.attempts ∧ q = z ∨ z.attempts < maxAttempts ∧ t.Settled (out, z) q) := by
  refine ⟨fun x y => Round.smaller, ?_, ?_, fun e => fails_of_shrink, ?_, ?_⟩
  · obtain ⟨n, y, hrounds, hlast⟩ := exists_last_round t (input, p)
    refine ⟨n, y, hrounds, hlast.imp_right ?_⟩
    intro ⟨e, herr⟩
    exact ⟨e, herr, (ensures_shrinkOnce t y.1).failure herr⟩
  · intro n y hrounds
    have hle : n + (y.1.length + y.1.weight) ≤ input.length + input.weight :=
      hrounds.add_slack_le
    exact ⟨by omega, hrounds.kept.sound⟩
  · intro hanswers
    cases hrun : ((t.shrink input).run p).result with
    | error e => exact absurd (fails_of_shrink hrun) (hanswers.not_fails e)
    | ok answer => exact ⟨answer.1, answer.2, rfl⟩
  · intro out q hok
    obtain ⟨n, z, hrounds, hstop⟩ := exists_rounds_of_shrink hok
    exact ⟨hrounds.kept.sound, n, z, hrounds, hstop⟩

/-- A check that one byte value breaks. -/
def tripwire : List Rule := [⟨.contains [0xaa], .violated ⟨.wrongValue, "tripped"⟩⟩]

theorem judges_ofRules (name : String) (rules : List Rule) :
    (ofRules name rules).Judges (Rule.judge rules) := by
  intro input s v s' hok
  exact (Prod.mk.inj (Except.ok.inj hok)).1.symm

theorem shrink_sound_tripwire :
    ∃ out q, ((ofRules "trip" tripwire).minimize [1, 0xaa, 2, 3] .nothing).result = .ok (out, q) ∧
      Input.Reduces [1, 0xaa, 2, 3] out ∧ (Rule.judge tripwire out).isViolation = true := by
  obtain ⟨-, -, -, -, hends, hsound⟩ :=
    shrink_sound (ofRules "trip" tripwire) [1, 0xaa, 2, 3] ⟨.nothing, 0⟩
  obtain ⟨out, q, hok⟩ := hends (answers_ofRules _ _)
  have hout := (hsound out q hok).1
  exact ⟨out, q, hok, hout.reduces, hout.violation _ (judges_ofRules _ _) rfl⟩

end Target

end Scanline.Fuzz

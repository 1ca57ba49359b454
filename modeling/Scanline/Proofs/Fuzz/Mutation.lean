import Scanline.Fuzz.Mutator
/-! Mutations. Whatever the seed, every draw is from something and every edit lies inside its input,
so that no mutation faults, and none changes the length of an input by much. -/

namespace Scanline.Fuzz

namespace Draw

variable {α β : Type} {d : Draw α} {P P' : α → Prop} {Q : β → Prop}

/-- The computation answers a value with a property, whatever the seed. -/
def Gives (d : Draw α) (P : α → Prop) : Prop :=
  ∀ seed, ∃ a seed', d.run seed = .ok (a, seed') ∧ P a

theorem Gives.pure {a : α} (h : P a) : Gives (Pure.pure a) P := fun seed => ⟨a, seed, rfl, h⟩

theorem Gives.bind {f : α → Draw β} (h : Gives d P) (hf : ∀ a, P a → Gives (f a) Q) :
    Gives (d >>= f) Q := by
  intro seed
  obtain ⟨a, seed', ha, hP⟩ := h seed
  obtain ⟨b, seed'', hb, hQ⟩ := hf a hP seed'
  refine ⟨b, seed'', ?_, hQ⟩
  rw [StateT.run_bind, ha]
  exact hb

theorem Gives.mono (h : Gives d P) (hP : ∀ a, P a → P' a) : Gives d P' := by
  intro seed
  obtain ⟨a, seed', ha, hPa⟩ := h seed
  exact ⟨a, seed', ha, hP a hPa⟩

theorem Gives.lift {r : Except Failure α} {a : α} (hr : r = .ok a) (h : P a) :
    Gives (liftM r) P := by
  intro seed
  subst hr
  exact ⟨a, seed, rfl, h⟩

theorem gives_next : Gives next fun _ => True := fun _ => ⟨_, _, rfl, trivial⟩

theorem gives_byte : Gives byte fun _ => True := .bind gives_next fun _ _ => .pure trivial

theorem gives_pick {n : Nat} (h : 0 < n) : Gives (pick n) (· < n) := by
  refine .bind gives_next fun v _ => ?_
  rw [if_neg (Nat.pos_iff_ne_zero.mp h)]
  exact .pure (Nat.mod_lt _ h)

theorem gives_choose {xs : List α} (h : xs ≠ []) : Gives (choose xs) (· ∈ xs) := by
  refine .bind (gives_pick (List.length_pos_iff.mpr h)) fun i hi => ?_
  rw [List.getElem?_eq_getElem hi]
  exact .pure (List.getElem_mem hi)

theorem gives_bytes (n : Nat) : Gives (bytes n) (·.length = n) := by
  induction n with
  | zero => exact .pure rfl
  | succ n ih =>
    refine .bind gives_byte fun b _ => .bind ih fun bs hbs => .pure ?_
    rw [List.length_cons, hbs]

end Draw

/-- The lengths of two inputs differ by at most `n`. -/
def Near (n : Nat) (a b : Input) : Prop := b.length ≤ a.length + n ∧ a.length ≤ b.length + n

namespace Edit
open Draw

variable {input : Input} {i : Nat}

theorem gives_update (h : i < input.length) (f : UInt8 → UInt8) :
    Gives (liftM (input.update i f)) (Near 1 input) := by
  refine .lift (if_pos h) ?_
  rw [Near, List.length_modify]
  omega

theorem gives_insert (h : i ≤ input.length) (b : UInt8) :
    Gives (liftM (input.insert i b)) (Near 1 input) := by
  refine .lift (if_pos h) ?_
  rw [Near, List.length_insertIdx_of_le_length h]
  omega

theorem gives_erase (h : i < input.length) :
    Gives (liftM (input.erase i)) (Near 1 input) := by
  refine .lift (if_pos h) ?_
  rw [Near, List.length_eraseIdx_of_lt h]
  omega

theorem gives_applyAt (e : Edit) (h : i < input.length) :
    Gives (e.applyAt input i) (Near 1 input) := by
  cases e with
  | flipBit => exact .bind (gives_pick (by decide)) fun _ _ => gives_update h _
  | flipByte => exact gives_update h _
  | insertByte => exact .bind gives_byte fun b _ => gives_insert (Nat.le_of_lt h) b
  | deleteByte => exact gives_erase h
  | replaceByte => exact .bind gives_byte fun _ _ => gives_update h _
  | edgeByte => exact .bind (gives_choose (by decide)) fun _ _ => gives_update h _

theorem gives_apply (e : Edit) (input : Input) : Gives (e.apply input) (Near 1 input) := by
  unfold Edit.apply
  split
  · rename_i hempty
    split
    · rename_i he
      rw [he]
      exact .bind gives_byte fun b _ => gives_insert (Nat.zero_le _) b
    · exact .pure ⟨Nat.le_succ _, Nat.le_succ _⟩
  · rename_i hne
    rw [List.isEmpty_iff] at hne
    exact .bind (gives_pick (List.length_pos_iff.mpr hne)) fun i hi => e.gives_applyAt hi

theorem gives_applyMany (n : Nat) (input : Input) : Gives (applyMany n input) (Near n input) := by
  induction n generalizing input with
  | zero => exact .pure ⟨Nat.le_refl _, Nat.le_refl _⟩
  | succ n ih =>
    refine .bind (gives_choose (by decide)) fun e _ => .bind (e.gives_apply input) fun a ha => ?_
    refine (ih a).mono fun b hb => ?_
    obtain ⟨ha, ha'⟩ := ha
    obtain ⟨hb, hb'⟩ := hb
    exact ⟨by omega, by omega⟩

end Edit

open Draw

/-- What a mutation may make of an input's length, given the dictionary. -/
structure Grown (dictionary : List Input) (input out : Input) : Prop where
  shrunk_le : input.length ≤ out.length + 16
  grown_le : ∀ m, 16 ≤ m → (∀ entry ∈ dictionary, entry.length ≤ m) →
    out.length ≤ input.length + m

variable {dictionary : List Input} {input out : Input}

theorem Near.grown {n : Nat} (h : Near n input out) (hn : n ≤ 16) :
    Grown dictionary input out := by
  obtain ⟨hlong, hshort⟩ := h
  exact ⟨by omega, fun m hm _ => by omega⟩

theorem grown_splice {entry : Input} {i : Nat} (hentry : entry ∈ dictionary)
    (hi : i ≤ input.length) : Grown dictionary input (input.splice i entry) := by
  have hlength : (input.splice i entry).length =
      i + entry.length + (input.length - (i + entry.length)) := by
    rw [Input.splice, List.length_append, List.length_append, List.length_take, List.length_drop,
      Nat.min_eq_left hi]
  refine ⟨by omega, fun m _ hm => ?_⟩
  have hle := hm entry hentry
  omega

theorem gives_spliceEntry (dictionary : List Input) (input : Input) :
    Gives (spliceEntry dictionary input) (Grown dictionary input) := by
  unfold spliceEntry
  split
  · exact .pure ⟨by omega, fun m _ _ => by omega⟩
  rename_i hne
  rw [List.isEmpty_iff] at hne
  refine .bind (gives_choose hne) fun entry hentry => ?_
  dsimp only
  split
  · exact .pure (grown_splice hentry (Nat.zero_le _))
  · rename_i hne
    rw [List.isEmpty_iff] at hne
    exact .bind (gives_pick (List.length_pos_iff.mpr hne)) fun i hi =>
      .pure (grown_splice hentry (Nat.le_of_lt hi))

theorem Mutator.gives_mutation (dictionary : List Input) (input : Input) :
    Gives (mutation dictionary input) (Grown dictionary input) := by
  have hedit : ∀ e : Edit, Gives (e.apply input) (Grown dictionary input) :=
    fun e => (e.gives_apply input).mono fun _ h => h.grown (by decide)
  refine .bind (gives_pick (by decide)) fun k _ => ?_
  split
  · exact hedit .flipBit
  · exact hedit .flipByte
  · exact hedit .insertByte
  · exact hedit .deleteByte
  · exact hedit .replaceByte
  · exact hedit .edgeByte
  · exact gives_spliceEntry dictionary input
  · refine .bind (gives_pick (by decide)) fun n hn => ?_
    exact (Edit.gives_applyMany (n + 1) input).mono fun _ h => h.grown hn
  · refine .bind (gives_pick (by decide)) fun n hn => .bind (gives_bytes (n + 1)) fun bs hbs =>
      .pure ?_
    have hlength : (input ++ bs).length = input.length + bs.length := List.length_append
    exact ⟨by omega, fun m _ _ => by omega⟩

theorem Mutator.exists_mutate (m : Mutator) (input : Input) :
    ∃ out m', m.mutate input = .ok (out, m') ∧ Grown m.dictionary input out := by
  obtain ⟨out, seed, hok, h⟩ := gives_mutation m.dictionary input m.seed
  exact ⟨out, { m with seed }, by rw [mutate, run, hok]; rfl, h⟩

theorem Mutator.exists_next (m : Mutator) : ∃ v m', m.next = .ok (v, m') := ⟨_, _, rfl⟩

end Scanline.Fuzz

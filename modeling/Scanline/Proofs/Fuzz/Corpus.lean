import Mathlib.Data.List.DropRight
import Mathlib.Data.List.Nodup
import Scanline.Fuzz.Corpus
/-! The corpus. Adding inputs never makes it longer than its capacity and never brings in an input
twice. An input is accepted if adding it changes the corpus. An accepted input becomes the newest
entry, and only a full corpus gives up an entry for it, the oldest; so the entries are always the
last of the accepted inputs, as many as the capacity, in the order in which they were accepted. -/

namespace Scanline.Fuzz.Corpus

/-- No entry twice, and no more entries than the capacity. -/
structure Bounded (c : Corpus) : Prop where
  nodup : c.entries.Nodup
  size_le : c.size ≤ c.capacity

variable {c : Corpus} {input : Input}

theorem bounded_empty (capacity : Nat) : (empty capacity).Bounded :=
  ⟨List.nodup_nil, Nat.zero_le capacity⟩

@[simp] theorem capacity_add : (c.add input).capacity = c.capacity := by
  unfold add
  split
  · rfl
  split
  · rfl
  · rfl

theorem nodup_concat {entries : List Input} (h : entries.Nodup) (hnew : input ∉ entries) :
    (entries ++ [input]).Nodup :=
  List.nodup_append_comm.mp (List.nodup_cons.mpr ⟨hnew, h⟩)

theorem add_eq_self (h : c.capacity = 0 ∨ input ∈ c.entries) : c.add input = c := if_pos h

theorem entries_add_of_room (hnew : ¬(c.capacity = 0 ∨ input ∈ c.entries))
    (hroom : c.size ≠ c.capacity) : (c.add input).entries = c.entries ++ [input] := by
  rw [add, if_neg hnew, if_neg hroom]

theorem entries_add_of_full (hnew : ¬(c.capacity = 0 ∨ input ∈ c.entries))
    (hfull : c.size = c.capacity) : (c.add input).entries = c.entries.tail ++ [input] := by
  rw [add, if_neg hnew, if_pos hfull]

/-- The last entries of a list to which one is added. -/
theorem rtake_concat_of_length_le {entries : List Input} {n : Nat} (hle : entries.length ≤ n)
    (hn : 0 < n) (input : Input) :
    (entries ++ [input]).rtake n =
      if entries.length = n then entries.tail ++ [input] else entries ++ [input] := by
  rw [List.rtake, List.length_append, List.length_singleton]
  split
  · rename_i hfull
    have hone : entries.length + 1 - n = 1 := by omega
    rw [hone, List.drop_append_of_le_length (by omega), List.drop_one]
  · rename_i hroom
    have hnone : entries.length + 1 - n = 0 := by omega
    rw [hnone, List.drop_zero]

/-- A new input becomes the newest of the last entries. -/
theorem Bounded.entries_add (h : c.Bounded) (hnew : ¬(c.capacity = 0 ∨ input ∈ c.entries)) :
    (c.add input).entries = (c.entries ++ [input]).rtake c.capacity := by
  have hpos : 0 < c.capacity := Nat.pos_of_ne_zero fun hzero => hnew (.inl hzero)
  rw [rtake_concat_of_length_le h.size_le hpos]
  split
  · rename_i hfull
    exact entries_add_of_full hnew hfull
  · rename_i hroom
    exact entries_add_of_room hnew hroom

theorem Bounded.add (h : c.Bounded) : (c.add input).Bounded := by
  by_cases hnew : c.capacity = 0 ∨ input ∈ c.entries
  · rwa [add_eq_self hnew]
  refine ⟨?_, ?_⟩
  · rw [h.entries_add hnew]
    have hconcat := nodup_concat h.nodup fun hmem => hnew (.inr hmem)
    exact hconcat.sublist (List.drop_sublist _ _)
  · rw [capacity_add, size, h.entries_add hnew, List.rtake, List.length_drop]
    omega

theorem input_mem_add (h : 0 < c.capacity) (input : Input) : input ∈ (c.add input).entries := by
  by_cases hheld : c.capacity = 0 ∨ input ∈ c.entries
  · rw [add_eq_self hheld]
    exact hheld.resolve_left (Nat.pos_iff_ne_zero.mp h)
  by_cases hfull : c.size = c.capacity
  · rw [entries_add_of_full hheld hfull]
    exact List.mem_append_right _ List.mem_cons_self
  · rw [entries_add_of_room hheld hfull]
    exact List.mem_append_right _ List.mem_cons_self

/-- Adding an input changes nothing just if there is no room for any or the input is held. -/
theorem add_eq_self_iff : c.add input = c ↔ c.capacity = 0 ∨ input ∈ c.entries := by
  refine ⟨fun h => ?_, add_eq_self⟩
  rcases Nat.eq_zero_or_pos c.capacity with hzero | hpos
  · exact .inl hzero
  · have hmem := input_mem_add hpos input
    rw [h] at hmem
    exact .inr hmem

/-- What comes after the last entries is as well after all of them. -/
theorem rtake_rtake_append (entries more : List Input) (n : Nat) :
    (entries.rtake n ++ more).rtake n = (entries ++ more).rtake n := by
  have hlength : (entries.rtake n ++ more).length - n + (entries.length - n) =
      (entries ++ more).length - n := by
    rw [List.length_append, List.length_append, List.rtake, List.length_drop]
    omega
  rw [List.rtake, List.rtake, List.rtake, ← hlength, Nat.add_comm, ← List.drop_drop]
  congr 1
  rw [List.drop_append_of_le_length (Nat.sub_le _ _)]

/-- The corpus after a sequence of inputs. -/
def addAll (c : Corpus) (inputs : List Input) : Corpus := inputs.foldl add c

/-- Those of the inputs whose adding changes the corpus. -/
def accepted (c : Corpus) : List Input → List Input
  | [] => []
  | input :: rest =>
    if c.add input = c then c.accepted rest else input :: (c.add input).accepted rest

theorem capacity_addAll (c : Corpus) (inputs : List Input) :
    (c.addAll inputs).capacity = c.capacity := by
  induction inputs generalizing c with
  | nil => rfl
  | cons input rest ih => exact (ih (c.add input)).trans capacity_add

theorem Bounded.addAll (h : c.Bounded) (inputs : List Input) : (c.addAll inputs).Bounded := by
  induction inputs generalizing c with
  | nil => exact h
  | cons input rest ih => exact ih h.add

/-- The entries are the last ones of those from the start and the accepted ones. -/
theorem Bounded.entries_addAll (h : c.Bounded) (inputs : List Input) :
    (c.addAll inputs).entries = (c.entries ++ c.accepted inputs).rtake c.capacity := by
  induction inputs generalizing c with
  | nil =>
    have hnone : c.entries.length - c.capacity = 0 := Nat.sub_eq_zero_of_le h.size_le
    rw [accepted, List.append_nil, List.rtake, hnone]
    rfl
  | cons input rest ih =>
    have hadd : (c.add input).Bounded := h.add
    have hrest := ih hadd
    rw [capacity_add] at hrest
    rw [accepted]
    split
    · rename_i hsame
      rw [hsame] at hrest
      rwa [Corpus.addAll, List.foldl_cons, hsame]
    · rename_i hchanged
      rw [add_eq_self_iff] at hchanged
      rw [h.entries_add hchanged, rtake_rtake_append, List.append_assoc] at hrest
      exact hrest

/-- What one more input does to a corpus: one that is held, and any if there is no room, leaves it
as it is; a new one becomes the newest entry, and the oldest leaves if the corpus was full. -/
structure Takes (c : Corpus) (input : Input) (c' : Corpus) : Prop where
  present : 0 < c.capacity → input ∈ c'.entries
  held : input ∈ c.entries → c' = c
  closed : c.capacity = 0 → c' = c
  room : input ∉ c.entries → c.size < c.capacity → c'.entries = c.entries ++ [input]
  full : 0 < c.capacity → input ∉ c.entries → c.size = c.capacity →
    ∃ oldest kept, c.entries = oldest :: kept ∧ c'.entries = kept ++ [input]

theorem takes_add (c : Corpus) (input : Input) : c.Takes input (c.add input) where
  present h := input_mem_add h input
  held h := add_eq_self (.inr h)
  closed h := add_eq_self (.inl h)
  room hnew hlt := entries_add_of_room (not_or.mpr ⟨by omega, hnew⟩) (Nat.ne_of_lt hlt)
  full hpos hnew hfull := by
    have hsome : c.entries ≠ [] := by
      intro hnil
      rw [size, hnil, List.length_nil] at hfull
      omega
    obtain ⟨oldest, kept, hentries⟩ := List.exists_cons_of_ne_nil hsome
    refine ⟨oldest, kept, hentries, ?_⟩
    rw [entries_add_of_full (not_or.mpr ⟨Nat.pos_iff_ne_zero.mp hpos, hnew⟩) hfull, hentries,
      List.tail_cons]

theorem isSome_entry_iff (c : Corpus) (i : UInt64) : (c.entry? i).isSome ↔ c.isEmpty = false := by
  unfold entry? isEmpty
  rw [Option.isSome_iff_ne_none, Ne, List.getElem?_eq_none_iff, Nat.not_le,
    List.isEmpty_eq_false_iff, ← List.length_pos_iff, size]
  refine ⟨fun h => ?_, Nat.mod_lt _⟩
  exact Nat.lt_of_le_of_lt (Nat.zero_le _) h

/-- A corpus after any inputs: no entry stands twice, there are no more than the capacity, and the
entries are the last of the accepted inputs in their order. -/
theorem corpus_fifo (capacity : Nat) (inputs : List Input) :
    let c := (empty capacity).addAll inputs
    c.capacity = capacity ∧ c.entries.Nodup ∧ c.size ≤ capacity ∧
    c.entries = ((empty capacity).accepted inputs).rtake capacity ∧
    (∀ input, c.Takes input ((empty capacity).addAll (inputs ++ [input]))) ∧
    ∀ i, (c.entry? i).isSome ↔ c.isEmpty = false := by
  intro c
  have hbounded : c.Bounded := (bounded_empty capacity).addAll inputs
  have hcapacity : c.capacity = capacity := capacity_addAll (empty capacity) inputs
  refine ⟨hcapacity, hbounded.nodup, hcapacity ▸ hbounded.size_le,
    (bounded_empty capacity).entries_addAll inputs, fun input => ?_, isSome_entry_iff c⟩
  have hconcat : (empty capacity).addAll (inputs ++ [input]) = c.add input :=
    List.foldl_concat add _ input inputs
  rw [hconcat]
  exact takes_add c input

/-- An input that was given up is accepted again. -/
example : (empty 2).accepted [[1], [2], [2], [3], [1]] = [[1], [2], [3], [1]] := by decide

end Scanline.Fuzz.Corpus

import Scanline.Proofs.Fuzz.Shrinking
/-! What a round of shrinking tries. If nothing that it tries breaks a check, a round tries the
input without each chunk of each size, and then the input with each byte that is not zero set to
zero: its candidates. Their number follows from the length and the bytes other than zero alone, and
a reduction has no more of them. -/

namespace Scanline.Fuzz.Input

variable {a b : Input}

/-- The shorter inputs that taking away the chunks at some places leaves. -/
def cuts (a : Input) (places : List (Nat × Nat)) : List Input :=
  (places.map fun place => a.without place.1 place.2).filter (·.length < a.length)

/-- The other inputs that setting the bytes at some places to zero gives. -/
def blanks (a : Input) (places : List Nat) : List Input :=
  (places.map fun i => a.set i 0).filter (· ≠ a)

/-- The places of the chunks of all sizes. -/
def places (length : Nat) : List (Nat × Nat) := chunkSizes.flatMap (chunks · length)

/-- What a round tries that accepts nothing. -/
def candidates (a : Input) : List Input :=
  a.cuts (places a.length) ++ a.blanks (List.range a.length)

theorem Smaller.ne (h : Smaller b a) : b ≠ a := by
  rintro rfl
  unfold Smaller at h
  omega

section Cuts
variable {start size : Nat} {rest : List (Nat × Nat)}

theorem cuts_cons_of_lt (h : (a.without start size).length < a.length) :
    a.cuts ((start, size) :: rest) = a.without start size :: a.cuts rest :=
  List.filter_cons_of_pos (decide_eq_true h)

theorem cuts_cons_of_not_lt (h : ¬(a.without start size).length < a.length) :
    a.cuts ((start, size) :: rest) = a.cuts rest :=
  List.filter_cons_of_neg fun htrue => h (of_decide_eq_true htrue)

theorem without_lt (hstart : start < a.length) (hsize : 0 < size) :
    (a.without start size).length < a.length := by
  rw [length_without]
  omega

theorem lt_chunks_iff {k length : Nat} (hsize : 0 < size) :
    k < (length + size - 1) / size ↔ k * size < length := by
  rw [Nat.lt_iff_add_one_le, Nat.le_div_iff_mul_le hsize, Nat.succ_mul]
  omega

theorem pos_of_mem_chunkSizes (h : size ∈ chunkSizes) : 0 < size :=
  (by decide : ∀ size ∈ chunkSizes, 0 < size) size h

theorem mem_places {length : Nat} :
    (start, size) ∈ places length ↔
      size ∈ chunkSizes ∧ ∃ k, k * size < length ∧ k * size = start := by
  simp only [places, chunks, List.mem_flatMap, List.mem_map, List.mem_range, Prod.mk.injEq]
  constructor
  · intro ⟨size', hsize, k, hk, hstart, heq⟩
    subst heq
    exact ⟨hsize, k, (lt_chunks_iff (pos_of_mem_chunkSizes hsize)).mp hk, hstart⟩
  · intro ⟨hsize, k, hk, hstart⟩
    exact ⟨size, hsize, k, (lt_chunks_iff (pos_of_mem_chunkSizes hsize)).mpr hk, hstart, rfl⟩

theorem without_lt_of_mem_places {place : Nat × Nat} (h : place ∈ places a.length) :
    (a.without place.1 place.2).length < a.length := by
  obtain ⟨hsize, k, hk, hstart⟩ := mem_places.mp h
  exact without_lt (hstart ▸ hk) (pos_of_mem_chunkSizes hsize)

/-- Every chunk takes something away. -/
theorem cuts_places (a : Input) :
    a.cuts (places a.length) = (places a.length).map fun place => a.without place.1 place.2 := by
  rw [cuts, List.filter_eq_self]
  intro c hc
  obtain ⟨place, hplace, rfl⟩ := List.mem_map.mp hc
  exact decide_eq_true (without_lt_of_mem_places hplace)

theorem length_places (length : Nat) :
    (places length).length = (chunkSizes.map fun size => (length + size - 1) / size).sum := by
  simp only [places, chunks, List.length_flatMap, List.length_map, List.length_range]

end Cuts

section Blanks
variable {i : Nat} {rest : List Nat}

theorem blanks_cons_of_ne (h : a.set i 0 ≠ a) : a.blanks (i :: rest) = a.set i 0 :: a.blanks rest :=
  List.filter_cons_of_pos (decide_eq_true h)

theorem blanks_cons_of_eq (h : a.set i 0 = a) : a.blanks (i :: rest) = a.blanks rest :=
  List.filter_cons_of_neg fun htrue => of_decide_eq_true htrue h

theorem length_blanks (a : Input) (rest : List Nat) :
    (a.blanks rest).length = rest.countP fun i => a.set i 0 ≠ a := by
  rw [blanks, ← List.countP_eq_length_filter, List.countP_map]
  rfl

/-- A byte that is zero already leaves no more bytes to set to zero. -/
theorem length_blanks_set_zero_le (a : Input) (i : Nat) (rest : List Nat) :
    (blanks (a.set i 0) rest).length ≤ (a.blanks rest).length := by
  rw [length_blanks, length_blanks]
  refine List.countP_mono_left fun j _ hj => decide_eq_true fun heq => of_decide_eq_true hj ?_
  by_cases hij : i = j
  · rw [← hij, List.set_set]
  · rw [List.set_comm _ _ hij, heq]

theorem length_blanks_range (a : Input) : (a.blanks (List.range a.length)).length = a.weight := by
  rw [length_blanks]
  induction a with
  | nil => rfl
  | cons b a ih =>
    have hhead : decide ((b :: a).set 0 0 ≠ b :: a) = (b != 0) := by
      by_cases hb : b = 0
      · simp [hb]
      · simp [hb, Ne.symm hb]
    have htail : ((fun i => decide ((b :: a).set i 0 ≠ b :: a)) ∘ Nat.succ) =
        fun i => decide (a.set i 0 ≠ a) := by
      funext i
      simp
    rw [List.length_cons, List.range_succ_eq_map, List.countP_cons, List.countP_map, hhead, htail,
      ih, weight, weight, List.countP_cons]

end Blanks

theorem length_candidates (a : Input) :
    a.candidates.length =
      (chunkSizes.map fun size => (a.length + size - 1) / size).sum + a.weight := by
  rw [candidates, List.length_append, cuts_places, List.length_map, length_places,
    length_blanks_range]

theorem sum_chunks_mono {m n : Nat} (h : m ≤ n) (sizes : List Nat) :
    (sizes.map fun size => (m + size - 1) / size).sum ≤
      (sizes.map fun size => (n + size - 1) / size).sum := by
  induction sizes with
  | nil => exact Nat.le_refl _
  | cons size sizes ih =>
    rw [List.map_cons, List.map_cons, List.sum_cons, List.sum_cons]
    have hsize : m + size - 1 ≤ n + size - 1 := by omega
    exact Nat.add_le_add (Nat.div_le_div_right hsize) ih

theorem Reduces.length_candidates_le (h : Reduces a b) :
    b.candidates.length ≤ a.candidates.length := by
  rw [length_candidates, length_candidates]
  exact Nat.add_le_add (sum_chunks_mono h.length_le chunkSizes) h.weight_le

section Members
variable {i : Nat}

theorem chunk_mem_candidates {size k : Nat} (hsize : size ∈ chunkSizes) (hk : k * size < a.length) :
    a.without (k * size) size ∈ a.candidates := by
  rw [candidates, cuts_places]
  exact List.mem_append_left _
    (List.mem_map.mpr ⟨(k * size, size), mem_places.mpr ⟨hsize, k, hk, rfl⟩, rfl⟩)

theorem eraseIdx_mem_candidates (h : i < a.length) : a.eraseIdx i ∈ a.candidates := by
  have hmem : a.without (i * 1) 1 ∈ a.candidates :=
    chunk_mem_candidates (by decide) (by rwa [Nat.mul_one])
  rwa [Nat.mul_one, without, ← List.eraseIdx_eq_take_drop_succ] at hmem

theorem set_zero_mem_candidates (h : i < a.length) (hne : a[i] ≠ 0) :
    a.set i 0 ∈ a.candidates := by
  refine List.mem_append_right _ (List.mem_filter.mpr ⟨?_, decide_eq_true ?_⟩)
  · exact List.mem_map.mpr ⟨i, List.mem_range.mpr h, rfl⟩
  · intro heq
    have hat : (a.set i 0)[i]? = some 0 := List.getElem?_set_self h
    rw [heq, List.getElem?_eq_getElem h] at hat
    exact hne (Option.some.inj hat)

end Members

end Scanline.Fuzz.Input

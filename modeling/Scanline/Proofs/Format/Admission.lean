import Scanline.Proofs.Format.Registry
/-! Registries over whole runs. Whatever is asked of a registry, its table and its index stay in
step: tags are places in the table, no two formats share a name, and the index knows just the names
of the table. A request that is refused changes nothing, and one that is granted only appends. -/

namespace Scanline.Registry
variable {r : Registry} {f g : Format} {name : String} {depth : Depth} {channels : List Channel}

theorem get?_push (r : Registry) (f : Format) (i : Nat) :
    (r.push f).get? i = if i = r.size then some f else r.get? i := Array.getElem?_push

theorem find?_push (r : Registry) (f : Format) (name : String) :
    (r.push f).find? name = if f.name = name then some f.tag else r.find? name := by
  simp only [push, find?, Std.HashMap.getElem?_insert, beq_iff_eq]

theorem toList_push (r : Registry) (f : Format) :
    (r.push f).formats.toList = r.formats.toList ++ [f] := Array.toList_push

theorem get?_eq_none_of_le {i : Nat} (h : r.size ≤ i) : r.get? i = none :=
  Array.getElem?_eq_none h

/-- The table and the index of names agree. -/
structure InStep (r : Registry) : Prop where
  tag_eq : ∀ i f, r.get? i = some f → f.tag = i
  names_nodup : (r.formats.toList.map Format.name).Nodup
  find?_iff : ∀ name tag,
    r.find? name = some tag ↔ ∃ f ∈ r.formats.toList, f.name = name ∧ f.tag = tag

theorem InStep.find?_eq_none_iff (h : r.InStep) :
    r.find? name = none ↔ ∀ f ∈ r.formats.toList, f.name ≠ name := by
  constructor
  · intro hnone f hf hname
    have hsome := (h.find?_iff name f.tag).mpr ⟨f, hf, hname, rfl⟩
    rw [hnone] at hsome
    cases hsome
  · intro hne
    cases hfind : r.find? name with
    | none => rfl
    | some tag =>
      obtain ⟨f, hf, hname, -⟩ := (h.find?_iff name tag).mp hfind
      exact absurd hname (hne f hf)

section Push
variable (h : r.InStep) (hnew : r.find? f.name = none)
include h hnew

theorem InStep.names_nodup_push : ((r.push f).formats.toList.map Format.name).Nodup := by
  rw [toList_push, List.map_append, List.map_singleton, List.nodup_append]
  refine ⟨h.names_nodup, List.pairwise_singleton _ _, ?_⟩
  intro name hmem name' hname' heq
  obtain ⟨g, hg, rfl⟩ := List.mem_map.mp hmem
  rw [List.mem_singleton] at hname'
  exact h.find?_eq_none_iff.mp hnew g hg (heq.trans hname')

theorem InStep.find?_push_iff (name : String) (tag : Nat) :
    (r.push f).find? name = some tag ↔
      ∃ g ∈ (r.push f).formats.toList, g.name = name ∧ g.tag = tag := by
  rw [find?_push, toList_push]
  constructor
  · intro hfind
    split at hfind
    · exact ⟨f, List.mem_append_right _ List.mem_cons_self, ‹_›, Option.some.inj hfind⟩
    · obtain ⟨g, hg, hname⟩ := (h.find?_iff name tag).mp hfind
      exact ⟨g, List.mem_append_left _ hg, hname⟩
  · rintro ⟨g, hg, rfl, rfl⟩
    rcases List.mem_append.mp hg with hg | hg
    · rw [if_neg fun heq => h.find?_eq_none_iff.mp hnew g hg heq.symm]
      exact (h.find?_iff _ _).mpr ⟨g, hg, rfl, rfl⟩
    · rw [List.mem_singleton.mp hg, if_pos rfl]

theorem InStep.push (htag : f.tag = r.size) : (r.push f).InStep := by
  refine ⟨?_, h.names_nodup_push hnew, h.find?_push_iff hnew⟩
  intro i g hg
  rw [get?_push] at hg
  split at hg
  · rename_i hi
    rw [← Option.some.inj hg, htag, hi]
  · exact h.tag_eq i g hg

end Push

theorem InStep.foldl_push (h : r.InStep) {fs : List Format} (hnew : ∀ f ∈ fs, r.find? f.name = none)
    (hnames : (fs.map Format.name).Nodup)
    (htags : fs.map Format.tag = List.range' r.size fs.length) : (fs.foldl Registry.push r).InStep := by
  induction fs generalizing r with
  | nil => exact h
  | cons f fs ih =>
    rw [List.map_cons, List.nodup_cons] at hnames
    rw [List.map_cons, List.length_cons, List.range'_succ, List.cons.injEq] at htags
    apply ih (h.push (hnew f List.mem_cons_self) htags.1)
    · intro g hg
      rw [find?_push, if_neg, hnew g (List.mem_cons_of_mem _ hg)]
      intro heq
      exact hnames.1 (heq ▸ List.mem_map_of_mem hg)
    · exact hnames.2
    · rw [htags.2, size_push]

theorem inStep_standard : standard.InStep := by
  have hempty : (⟨#[], ∅⟩ : Registry).InStep := by
    refine ⟨fun i f hf => ?_, List.nodup_nil, fun name tag => ?_⟩
    · cases hf
    · simp [find?]
  apply hempty.foldl_push
  · intro f _
    simp [find?]
  · decide
  · rfl

theorem Reachable.inStep (hr : r.Reachable) : r.InStep := by
  induction hr with
  | standard => exact inStep_standard
  | push _ hf ih =>
    obtain ⟨hnew, -, -, rfl⟩ := newFormat_eq_ok_iff.mp hf
    exact ih.push hnew rfl

theorem Reachable.size_le (hr : r.Reachable) : r.size ≤ maxFormats := by
  induction hr with
  | standard => decide
  | push _ hf _ =>
    obtain ⟨-, -, hlt, -⟩ := newFormat_eq_ok_iff.mp hf
    rw [size_push]
    exact hlt

theorem Reachable.standard_prefix (hr : r.Reachable) : Format.standard <+: r.formats.toList := by
  induction hr with
  | standard => exact toList_standard ▸ List.prefix_rfl
  | push _ _ ih =>
    rw [toList_push]
    exact ih.trans (List.prefix_append _ _)

/-- The registry that its owner has after a request, which may have been refused. -/
def extend (r : Registry) (wanted : String × Depth × List Channel) : Registry :=
  match (r.register wanted.1 wanted.2.1 wanted.2.2).result with
  | .ok (_, r') => r'
  | .error _ => r

/-- The registry after some requests. -/
def after (wanted : List (String × Depth × List Channel)) : Registry := wanted.foldl extend standard

theorem Reachable.extend (hr : r.Reachable) (wanted : String × Depth × List Channel) :
    (r.extend wanted).Reachable := by
  unfold Registry.extend
  split
  · exact hr.register ‹_›
  · exact hr

theorem reachable_after (wanted : List (String × Depth × List Channel)) :
    (after wanted).Reachable := by
  have hrun : ∀ r : Registry, r.Reachable → (wanted.foldl Registry.extend r).Reachable := by
    induction wanted with
    | nil => exact fun r hr => hr
    | cons w ws ih => exact fun r hr => ih _ (hr.extend w)
  exact hrun standard .standard

/-- The second registry is the first with one more format, under the next tag. -/
structure Extended (r : Registry) (name : String) (depth : Depth) (channels : List Channel)
    (answer : Nat × Registry) : Prop where
  tag_eq : answer.1 = r.size
  size_eq : answer.2.size = r.size + 1
  get?_new : answer.2.get? answer.1 = some ⟨answer.1, name, depth, channels⟩
  find?_new : answer.2.find? name = some answer.1
  get?_old : ∀ i f, r.get? i = some f → answer.2.get? i = some f
  find?_old : ∀ name' tag, r.find? name' = some tag → answer.2.find? name' = some tag

theorem register_eq_ok_iff {answer : Nat × Registry} :
    (r.register name depth channels).result = .ok answer ↔
      ∃ f, r.newFormat name depth channels = .ok f ∧ (f.tag, r.push f) = answer := by
  unfold register
  cases r.newFormat name depth channels with
  | error e => simp [Attempt.fail]
  | ok f => simp

theorem extended_of_register {answer : Nat × Registry}
    (h : (r.register name depth channels).result = .ok answer) :
    Extended r name depth channels answer := by
  obtain ⟨f, hf, rfl⟩ := register_eq_ok_iff.mp h
  obtain ⟨hnew, hsound, -, rfl⟩ := newFormat_eq_ok_iff.mp hf
  refine ⟨rfl, size_push _ _, ?_, ?_, ?_, ?_⟩
  · rw [get?_push, Format.ofChannels, if_pos rfl,
      List.take_of_length_le (length_le_of_soundLayout hsound)]
  · rw [find?_push, Format.ofChannels, if_pos rfl]
  · intro i g hg
    rw [get?_push, if_neg, hg]
    rintro rfl
    rw [get?_eq_none_of_le (Nat.le_refl _)] at hg
    cases hg
  · intro name' tag htag
    rw [find?_push, if_neg, htag]
    rintro rfl
    rw [Format.ofChannels, hnew] at htag
    cases htag

/-- After any requests the table starts with the standard formats, agrees with the index and is no
longer than tags reach. The next request is granted just if its name is new, its layout is sound and
a tag is left; it then appends one format, and otherwise nothing changes. -/
theorem after_inStep (wanted : List (String × Depth × List Channel)) :
    Format.standard <+: (after wanted).formats.toList ∧ (after wanted).InStep ∧
      (after wanted).size ≤ maxFormats ∧
      ∀ name depth channels,
        ((∃ answer, ((after wanted).register name depth channels).result = .ok answer) ↔
          (∀ f ∈ (after wanted).formats.toList, f.name ≠ name) ∧
            soundLayout depth channels = true ∧ (after wanted).size < maxFormats) ∧
        (∀ answer, ((after wanted).register name depth channels).result = .ok answer →
          Extended (after wanted) name depth channels answer ∧
            after (wanted ++ [(name, depth, channels)]) = answer.2) ∧
        ∀ e, ((after wanted).register name depth channels).result = .error e →
          after (wanted ++ [(name, depth, channels)]) = after wanted := by
  have hr := reachable_after wanted
  have hnext : ∀ w, after (wanted ++ [w]) = (after wanted).extend w :=
    fun w => by rw [after, List.foldl_append]; rfl
  refine ⟨hr.standard_prefix, hr.inStep, hr.size_le, fun name depth channels => ⟨?_, ?_, ?_⟩⟩
  · rw [← hr.inStep.find?_eq_none_iff]
    constructor
    · rintro ⟨answer, hanswer⟩
      obtain ⟨f, hf, -⟩ := register_eq_ok_iff.mp hanswer
      obtain ⟨hnew, hsound, hlt, -⟩ := newFormat_eq_ok_iff.mp hf
      exact ⟨hnew, hsound, hlt⟩
    · rintro ⟨hnew, hsound, hlt⟩
      exact ⟨_, register_eq_ok_iff.mpr ⟨_, newFormat_eq_ok_iff.mpr ⟨hnew, hsound, hlt, rfl⟩, rfl⟩⟩
  · intro answer hanswer
    refine ⟨extended_of_register hanswer, ?_⟩
    rw [hnext, extend, hanswer]
  · intro e he
    rw [hnext, extend, he]

theorem after_inStep_sample :
    ∃ answer, (standard.register "K4" .four [⟨.value, 0, 4⟩]).result = .ok answer ∧
      answer.1 = 9 ∧ answer.2.find? "K4" = some 9 ∧ answer.2.find? "G2" = some 1 ∧
      ∀ again, (answer.2.register "K4" .one [⟨.value, 0, 1⟩]).result ≠ .ok again := by
  obtain ⟨-, hstep, -, hnext⟩ := after_inStep []
  obtain ⟨hgrant, hanswer, -⟩ := hnext "K4" .four [⟨.value, 0, 4⟩]
  obtain ⟨answer, ha⟩ := hgrant.mpr (by decide)
  obtain ⟨h, hafter⟩ := hanswer answer ha
  rw [List.nil_append] at hafter
  have hnine : answer.1 = 9 := h.tag_eq
  have hfind : answer.2.find? "K4" = some 9 := by rw [h.find?_new, hnine]
  refine ⟨answer, ha, hnine, hfind, h.find?_old "G2" 1 ?_, ?_⟩
  · exact (hstep.find?_iff "G2" 1).mpr ⟨Format.g2, by decide, rfl, rfl⟩
  · intro again hagain
    obtain ⟨-, hstep₂, -, hnext₂⟩ := after_inStep [("K4", .four, [⟨.value, 0, 4⟩])]
    rw [hafter] at hstep₂ hnext₂
    obtain ⟨f, hf, hname, -⟩ := (hstep₂.find?_iff "K4" 9).mp hfind
    exact ((hnext₂ "K4" .one [⟨.value, 0, 1⟩]).1.mp ⟨again, hagain⟩).1 f hf hname

end Scanline.Registry

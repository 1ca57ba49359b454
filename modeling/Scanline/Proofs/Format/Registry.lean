import Scanline.Proofs.Format.Layout
/-! The formats that registries can hold. A registry starts with the standard formats and grows by
one admitted format at a time, and all of them have a sound layout. -/

namespace Scanline

namespace Registry

/-- The registries that admissions make from the standard one. -/
inductive Reachable : Registry → Prop
  | standard : Reachable standard
  | push {r : Registry} {name : String} {depth : Depth} {channels : List Channel} {f : Format} :
      Reachable r → r.newFormat name depth channels = .ok f → Reachable (r.push f)

variable {r : Registry} {name : String} {depth : Depth} {channels : List Channel} {f : Format}

theorem toList_foldl_push (fs : List Format) (r : Registry) :
    (fs.foldl push r).formats.toList = r.formats.toList ++ fs := by
  induction fs generalizing r with
  | nil => rw [List.foldl_nil, List.append_nil]
  | cons f fs ih =>
    rw [List.foldl_cons, ih, push, Array.toList_push, List.append_assoc, List.singleton_append]

theorem toList_standard : standard.formats.toList = Format.standard := toList_foldl_push _ _

theorem newFormat_eq_ok_iff : r.newFormat name depth channels = .ok f ↔
    r.find? name = none ∧ soundLayout depth channels = true ∧ r.size < maxFormats ∧
      Format.ofChannels r.size name depth channels = f := by
  unfold newFormat
  cases r.find? name with
  | some tag => simp
  | none =>
    cases soundLayout depth channels with
    | false => simp
    | true =>
      by_cases hlt : r.size < maxFormats
      · simp [hlt, Nat.not_le.mpr hlt]
      · simp [hlt, Nat.not_lt.mp hlt]

theorem length_le_of_soundLayout (h : soundLayout depth channels = true) :
    channels.length ≤ maxChannels := by
  simp only [soundLayout, Bool.and_eq_true, decide_eq_true_eq] at h
  exact h.1.1.2

theorem sound_of_newFormat (h : r.newFormat name depth channels = .ok f) : f.Sound := by
  obtain ⟨-, hsound, -, rfl⟩ := newFormat_eq_ok_iff.mp h
  rw [Format.Sound, Format.ofChannels, List.take_of_length_le (length_le_of_soundLayout hsound)]
  exact hsound

theorem Reachable.register {tag : Nat} {r' : Registry} (hr : r.Reachable)
    (h : (r.register name depth channels).result = .ok (tag, r')) : r'.Reachable := by
  unfold Registry.register at h
  split at h
  · exact absurd h nofun
  · rename_i f hf
    obtain ⟨-, rfl⟩ := Prod.mk.inj (Except.ok.inj h)
    exact hr.push hf

theorem Reachable.sound_of_mem (hr : r.Reachable) : ∀ f ∈ r.formats.toList, f.Sound := by
  induction hr with
  | standard =>
    rw [toList_standard]
    decide
  | push _ hf ih =>
    intro g hg
    rw [Registry.push, Array.toList_push, List.mem_append, List.mem_singleton] at hg
    rcases hg with hg | rfl
    · exact ih g hg
    · exact sound_of_newFormat hf

theorem Reachable.sound (hr : r.Reachable) {tag : Nat} (h : r.get? tag = some f) : f.Sound :=
  hr.sound_of_mem f (Array.mem_toList_iff.mpr (Array.mem_of_getElem? h))

end Registry

namespace Format

/-- Some registry holds the format. -/
def Known (f : Format) : Prop := ∃ r : Registry, r.Reachable ∧ ∃ tag, r.get? tag = some f

theorem Known.sound {f : Format} (h : f.Known) : f.Sound := by
  obtain ⟨r, hr, tag, hf⟩ := h
  exact hr.sound hf

theorem known_of_mem_standard {f : Format} (h : f ∈ standard) : f.Known := by
  rw [← Registry.toList_standard, Array.mem_toList_iff] at h
  obtain ⟨tag, htag, hf⟩ := Array.mem_iff_getElem.mp h
  refine ⟨Registry.standard, .standard, tag, ?_⟩
  rw [Registry.get?, Array.getElem?_eq_getElem htag, hf]

end Format

end Scanline

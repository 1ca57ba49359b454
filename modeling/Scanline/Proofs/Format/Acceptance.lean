import Scanline.Proofs.Format.Admission
import Scanline.Proofs.Format.Checked
/-! The answers of a registry to a request. A new name with an admissible layout is granted while
tags last; a name in use and a bad layout are refused, each with its own error. The check of the
layout never leaves the words, however offsets and sizes are chosen from the bytes. -/

namespace Scanline

namespace Registry
variable {r : Registry} {name : String} {depth : Depth} {channels : List Channel} {used : Pixel}

def checkedUsedBits (depth : Depth) : Pixel → List Channel → Except Failure (Option Pixel)
  | used, [] => .ok (some used)
  | used, c :: rest => do
    let last ← Checked.add c.offset.toUInt32 c.size.toUInt32
    if c.size = 0 ∨ last.toNat > depth.bits then .ok none
    else
      let bits ← Checked.shl (← Channel.checkedLowBits c.size) c.offset
      if used &&& bits ≠ 0 then .ok none else checkedUsedBits depth (used ||| bits) rest

theorem toNat_ofNat_of_byte {n : Nat} (hn : n < 256) : n.toUInt32.toNat = n :=
  UInt32.toNat_ofNat_of_lt' (Nat.lt_trans hn (by decide))

theorem checkedUsedBits_eq (hbytes : ∀ c ∈ channels, c.offset < 256 ∧ c.size < 256) :
    checkedUsedBits depth used channels = .ok (usedBits depth used channels) := by
  induction channels generalizing used with
  | nil => rfl
  | cons c rest ih =>
    rw [List.forall_mem_cons] at hbytes
    obtain ⟨⟨hoffset, hsize⟩, hrest⟩ := hbytes
    have hend : (c.offset + c.size).toUInt32.toNat = c.offset + c.size :=
      UInt32.toNat_ofNat_of_lt' (Nat.lt_trans (Nat.add_lt_add hoffset hsize) (by decide))
    have hadd : Checked.add c.offset.toUInt32 c.size.toUInt32 =
        .ok (c.offset + c.size).toUInt32 := by
      rw [Checked.add_eq_ok, hend, toNat_ofNat_of_byte hoffset, toNat_ofNat_of_byte hsize]
    rw [checkedUsedBits, usedBits, hadd, ok_bind, hend]
    -- Only past the test of the end is the channel known to fit, and with it the shifts to be
    -- exact.
    split
    · rfl
    · rename_i hfit
      have hfits : c.Fits depth := ⟨by omega, by omega⟩
      have hshl : Checked.shl (Channel.lowBits c.size) c.offset =
          .ok (Channel.lowBits c.size <<< c.offset.toUInt32) := by
        have hlt : c.full.toNat < 2 ^ c.size := by
          rw [hfits.toNat_full]
          exact Nat.sub_lt (Nat.two_pow_pos _) Nat.one_pos
        rw [Checked.shl_eq_ok hfits.offset_lt, toNat_shiftLeft_of_lt _ hfits.offset_lt]
        exact Nat.mod_eq_of_lt (hfits.shiftLeft_lt hlt)
      rw [Channel.checkedLowBits_eq, ok_bind, hshl, ok_bind]
      dsimp only
      split
      · rfl
      · exact ih hrest

theorem newFormat_eq_error_iff {e : ConfigError} : r.newFormat name depth channels = .error e ↔
    e = .duplicateFormat name ∧ r.find? name ≠ none ∨
    e = .invalidChannel name ∧ r.find? name = none ∧
      ¬(soundLayout depth channels = true ∧ r.size < maxFormats) := by
  unfold newFormat
  cases r.find? name with
  | some tag => simp [eq_comm (a := e)]
  | none =>
    cases soundLayout depth channels with
    | false => simp [eq_comm (a := e)]
    | true =>
      by_cases hlt : r.size < maxFormats
      · simp [hlt, Nat.not_le.mpr hlt]
      · simp [hlt, Nat.not_lt.mp hlt, eq_comm (a := e)]

theorem register_eq_error_iff {e : ConfigError} :
    (r.register name depth channels).result = .error (.config e) ↔
      r.newFormat name depth channels = .error e := by
  unfold register
  cases r.newFormat name depth channels with
  | error e' => simp [Attempt.fail]
  | ok f => simp

theorem exists_register_eq_ok_iff :
    (∃ answer, (r.register name depth channels).result = .ok answer) ↔
      r.find? name = none ∧ soundLayout depth channels = true ∧ r.size < maxFormats := by
  constructor
  · rintro ⟨answer, hanswer⟩
    obtain ⟨f, hf, -⟩ := register_eq_ok_iff.mp hanswer
    obtain ⟨hname, hsound, hlt, -⟩ := newFormat_eq_ok_iff.mp hf
    exact ⟨hname, hsound, hlt⟩
  · rintro ⟨hname, hsound, hlt⟩
    have hnew := newFormat_eq_ok_iff.mpr ⟨hname, hsound, hlt, rfl⟩
    exact ⟨_, register_eq_ok_iff.mpr ⟨_, hnew, rfl⟩⟩

theorem Reachable.find?_ne_none_iff (hr : r.Reachable) :
    r.find? name ≠ none ↔ ∃ f ∈ r.formats.toList, f.name = name := by
  rw [Ne, hr.inStep.find?_eq_none_iff]
  constructor
  · intro hused
    by_contra hnew
    exact hused fun f hf hname => hnew ⟨f, hf, hname⟩
  · rintro ⟨f, hf, hname⟩ hnew
    exact hnew f hf hname

theorem Reachable.known (hr : r.Reachable) (hname : ∀ f ∈ r.formats.toList, f.name ≠ name)
    (hsound : soundLayout depth channels = true) (hlt : r.size < maxFormats) :
    Format.Known ⟨r.size, name, depth, channels⟩ := by
  have hnew := newFormat_eq_ok_iff.mpr ⟨hr.inStep.find?_eq_none_iff.mpr hname, hsound, hlt, rfl⟩
  refine ⟨_, hr.push hnew, r.size, ?_⟩
  rw [get?_push, if_pos rfl, Format.ofChannels,
    List.take_of_length_le (length_le_of_soundLayout hsound)]

/-- The answer to a request: a name in use is refused before anything else, and then the layout and
the number of formats decide. -/
theorem register_result (hr : r.Reachable) (name : String) (depth : Depth)
    (channels : List Channel) :
    ((∃ answer, (r.register name depth channels).result = .ok answer) ↔
      (∀ f ∈ r.formats.toList, f.name ≠ name) ∧ Admissible depth channels ∧ r.size < 65536) ∧
    ((r.register name depth channels).result = .error (.config (.duplicateFormat name)) ↔
      ∃ f ∈ r.formats.toList, f.name = name) ∧
    ((r.register name depth channels).result = .error (.config (.invalidChannel name)) ↔
      (∀ f ∈ r.formats.toList, f.name ≠ name) ∧ ¬(Admissible depth channels ∧ r.size < 65536)) ∧
    ((∀ c ∈ channels, c.offset < 256 ∧ c.size < 256) →
      checkedUsedBits depth 0 channels = .ok (usedBits depth 0 channels)) := by
  simp only [← soundLayout_iff, ← hr.inStep.find?_eq_none_iff, ← hr.find?_ne_none_iff]
  refine ⟨exists_register_eq_ok_iff, ?_, ?_, checkedUsedBits_eq⟩
  · rw [register_eq_error_iff, newFormat_eq_error_iff]
    simp only [true_and, reduceCtorEq, false_and, or_false]
  · rw [register_eq_error_iff, newFormat_eq_error_iff]
    simp only [true_and, reduceCtorEq, false_and, false_or]
    exact Iff.rfl

theorem register_result_standard :
    (∃ answer, (standard.register "Y32" .thirtyTwo [⟨.value, 0, 32⟩]).result = .ok answer) ∧
    (standard.register "G8" .thirtyTwo [⟨.value, 0, 32⟩]).result =
      .error (.config (.duplicateFormat "G8")) ∧
    (standard.register "RG" .sixteen [⟨.red, 0, 8⟩, ⟨.green, 7, 8⟩]).result =
      .error (.config (.invalidChannel "RG")) ∧
    checkedUsedBits .eight 0 [⟨.pad, 0, 1⟩, ⟨.alpha, 255, 255⟩] = .ok none := by
  have hfull := register_result .standard "Y32" .thirtyTwo [⟨.value, 0, 32⟩]
  have hgray := register_result .standard "G8" .thirtyTwo [⟨.value, 0, 32⟩]
  have hmeet := register_result .standard "RG" .sixteen [⟨.red, 0, 8⟩, ⟨.green, 7, 8⟩]
  have hfar := register_result .standard "A" .eight [⟨.pad, 0, 1⟩, ⟨.alpha, 255, 255⟩]
  rw [toList_standard] at hfull hgray hmeet
  exact ⟨hfull.1.mpr (by decide), hgray.2.1.mpr (by decide), hmeet.2.2.1.mpr (by decide),
    (hfar.2.2.2 (by decide)).trans rfl⟩

end Registry

namespace Format

theorem known_of_new_name {name : String} {depth : Depth} {channels : List Channel}
    (hname : ∀ f ∈ standard, f.name ≠ name)
    (hsound : Registry.soundLayout depth channels = true) : Known ⟨9, name, depth, channels⟩ := by
  rw [← Registry.toList_standard] at hname
  exact Registry.Reachable.standard.known hname hsound (by decide)

/-- Color with two bits of alpha, in channels wider and narrower than a byte. -/
def rgb10a2 : Format :=
  ⟨9, "RGB10A2", .thirtyTwo, [⟨.red, 22, 10⟩, ⟨.green, 12, 10⟩, ⟨.blue, 2, 10⟩, ⟨.alpha, 0, 2⟩]⟩

theorem known_rgb10a2 : rgb10a2.Known := known_of_new_name (by decide) (by decide)

end Format

end Scanline

import Scanline.Proofs.Fuzz.Boxes
import Scanline.Proofs.Fuzz.Circles
import Scanline.Proofs.Fuzz.Copies
/-! The targets of trials. Each reads a trial from any input that is long enough, and since the
checks of every trial that can be read hold, none of them ever reports a violation. -/

namespace Scanline.Fuzz

theorem Verdict.Upheld.isViolation_eq {v : Verdict} (h : v.Upheld) :
    v.isViolation = false ∧ v ≠ .rejected := by
  rcases h with rfl | ⟨reason, rfl⟩
  · exact ⟨rfl, nofun⟩
  · exact ⟨rfl, nofun⟩

namespace Target

variable {σ α : Type}

/-- The target answers every input, without a violation, and rejects just those that are too short
to be read. -/
def Upholds (t : Target σ) (least : Nat) : Prop :=
  ∀ input s, ∃ v, (t.fuzz input s).result = .ok (v, s) ∧ v.isViolation = false ∧
    (v = .rejected ↔ input.length < least)

theorem upholds_ofTrial {name : String} {least : Nat} {read : Reader α}
    {judge : α → Attempt Verdict} {P : α → Prop} (hread : Reader.Always read P)
    (hjudge : ∀ a, P a → ∃ v, (judge a).result = .ok v ∧ v.Upheld) :
    Upholds (ofTrial name least read judge : Target σ) least := by
  intro input s
  by_cases hshort : input.length < least
  · refine ⟨.rejected, ?_, rfl, iff_of_true rfl hshort⟩
    simp only [ofTrial, ofJudge, if_pos hshort]
    rfl
  · obtain ⟨v, hok, hv⟩ := hjudge _ (hread input)
    obtain ⟨hviolation, hrejected⟩ := hv.isViolation_eq
    refine ⟨v, ?_, hviolation, iff_of_false hrejected hshort⟩
    simp only [ofTrial, ofJudge, if_neg hshort, hok, Attempt.result_bind, ok_bind]
    rfl

/-- Copies, circles and boxes agree with what their trials expect, whatever the input. -/
theorem trials_upheld :
    Upholds (copies : Target σ) 8 ∧ Upholds (circles : Target σ) 6 ∧
      Upholds (boxes : Target σ) 4 := by
  refine ⟨?_, ?_, ?_⟩
  · exact upholds_ofTrial CopyTrial.always_read fun t h => t.judge_upheld h.1 h.2
  · exact upholds_ofTrial CircleTrial.always_read fun t h => t.judge_upheld h
  · exact upholds_ofTrial BoxTrial.always_read fun t h => ⟨_, rfl, t.judge_of_canonical h.1 h.2⟩

end Target

end Scanline.Fuzz

import Mathlib.Algebra.Group.Nat.Defs
import Scanline.Fuzz.BoxTrial
import Scanline.Proofs.Box.Laws
/-! What trials read from inputs. Every input reads as something, however short it is, and what it
reads as lies in the ranges that the library works with. -/

namespace Scanline.Fuzz

/-- No check is broken. -/
def Verdict.Upheld (v : Verdict) : Prop := v = .passed ∨ ∃ reason, v = .interesting reason

namespace Reader

variable {α β : Type} {r : Reader α} {P : α → Prop} {Q : β → Prop}

/-- The reader answers a value with a property, whatever is left of an input. -/
def Always (r : Reader α) (P : α → Prop) : Prop := ∀ input, P (r input).1

theorem Always.any (r : Reader α) : Always r fun _ => True := fun _ => trivial

theorem Always.pure {a : α} (h : P a) : Always (Pure.pure a) P := fun _ => h

theorem Always.bind {f : α → Reader β} (h : Always r P) (hf : ∀ a, P a → Always (f a) Q) :
    Always (r >>= f) Q := fun input => hf _ (h input) _

theorem always_unsigned (n : Nat) : Always (unsigned n) (· < 256 ^ n) := by
  induction n with
  | zero => exact .pure Nat.one_pos
  | succ n ih =>
    refine .bind (.any _) fun low _ => .bind ih fun high hhigh => .pure ?_
    have hlow := low.toNat_lt
    rw [Nat.pow_succ]
    omega

theorem always_signed {n : Nat} (hn : n ≤ 4) :
    Always (signed n) fun v => coordMin ≤ v ∧ v ≤ coordMax := by
  refine .bind (always_unsigned n) fun u _ => .pure ?_
  have hpos : 0 < 1 <<< (8 * n) := by
    rw [Nat.one_shiftLeft]
    exact Nat.two_pow_pos _
  have hpow : 1 <<< (8 * n) ≤ 1 <<< 32 := by
    rw [Nat.one_shiftLeft, Nat.one_shiftLeft]
    exact Nat.pow_le_pow_right Nat.two_pos (by omega)
  have hle := Int.le_bmod (x := u) hpos
  have hlt := Int.bmod_lt (x := u) hpos
  simp only [coordMin, coordMax]
  omega

theorem always_coord : Always coord fun v => coordMin ≤ v ∧ v ≤ coordMax := by
  refine .bind (.any _) fun tag _ => ?_
  split
  · exact always_signed (Nat.le_refl 4)
  · exact always_signed (by decide)

theorem always_extent : Always extent (· ≤ sizeMax) := by
  refine .bind (.any _) fun tag _ => ?_
  split
  · exact fun input => Nat.le_of_lt_succ (always_unsigned 4 input)
  · exact fun input => Nat.le_trans (Nat.le_of_lt (always_unsigned 1 input)) (by decide)

theorem always_size {most : Nat} (h : 0 < most) : Always (size most) fun n => 0 < n ∧ n ≤ most := by
  refine .bind (.any _) fun b _ => .pure ?_
  have := Nat.mod_lt b.toNat h
  omega

end Reader

open Reader

theorem BoxTrial.always_readBox : Always readBox Box.Canonical :=
  .bind always_coord fun _ hx => .bind always_coord fun _ hy =>
    .bind always_extent fun _ hw => .bind always_extent fun _ hh =>
      .pure (Box.canonical_ofSize ⟨hx.1, hx.2, hy.1, hy.2, hw, hh⟩)

theorem BoxTrial.always_read : Always read fun t => t.a.Canonical ∧ t.b.Canonical :=
  .bind always_readBox fun _ ha => .bind always_readBox fun _ hb =>
    .bind always_coord fun _ _ => .bind always_coord fun _ _ => .pure ⟨ha, hb⟩

/-- What a trial makes its pixmaps of. -/
structure Specimen.Sound (s : Specimen) : Prop where
  tag_lt : s.tag < Registry.standard.size
  width_pos : 0 < s.width
  width_le : s.width ≤ maxSide
  height_pos : 0 < s.height
  height_le : s.height ≤ maxSide
  align_eq : s.align = 1 ∨ s.align = 2 ∨ s.align = 4 ∨ s.align = 8

theorem Specimen.always_read : Always read Sound := by
  refine .bind (.any _) fun tag _ => .bind (always_size (by decide)) fun w hw =>
    .bind (always_size (by decide)) fun h hh => .bind (.any _) fun align _ => .pure ?_
  refine ⟨Nat.mod_lt _ (by decide), hw.1, hw.2, hh.1, hh.2, ?_⟩
  have hshift : ∀ k < 4, 1 <<< k = 1 ∨ 1 <<< k = 2 ∨ 1 <<< k = 4 ∨ 1 <<< k = 8 := by decide
  exact hshift _ (Nat.mod_lt _ (by decide))

end Scanline.Fuzz

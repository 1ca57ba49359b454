import Scanline.Damage
import Scanline.Proofs.Box.Membership
/-! Which points the damage holds. Adding a box forgets no point of the screen, and what the damage
amounts to covers every point of it on the screen. -/

namespace Scanline.Damage
variable {d : Damage} {b : Box} {p : Point}

@[simp] theorem add_full (d : Damage) (b : Box) : (d.add b).full = d.full := by
  unfold add
  split
  · rfl
  · rfl

@[simp] theorem add_bounds (d : Damage) (b : Box) : (d.add b).bounds = d.bounds := by
  unfold add
  split
  · rfl
  · rfl

theorem add_stats (d : Damage) (b : Box) : (d.add b).stats =
    ⟨d.stats.boxesAdded + if b.isEmpty then 0 else 1, d.stats.flushes, d.stats.fullRedraws,
      d.stats.lastFlushPixels⟩ := by
  unfold add
  split
  · rfl
  · rfl

theorem mem_add_pending (hp : p.OnScreen) (hfull : d.full = false) (h : p ∈ d.pending ∨ p ∈ b) :
    p ∈ (d.add b).pending := by
  unfold add
  split
  · rename_i hempty
    exact h.resolve_right (Box.not_mem_of_isEmpty hempty)
  · simp only [hfull, Bool.false_eq_true, if_false]
    exact Box.mem_union hp h

theorem redraw_of_full (h : d.full = true) : d.redraw = .full := by
  rw [redraw, h, Bool.true_or, if_pos rfl]

theorem redraw_of_isEmpty (hfull : d.full = false)
    (h : (d.pending.intersect d.bounds).isEmpty = true) : d.redraw = .nothing := by
  rw [redraw, hfull, h]
  rfl

theorem redraw_of_part {part : Box} (hfull : d.full = false)
    (hpart : d.pending.intersect d.bounds = part) (h : part.isEmpty = false) :
    d.redraw = if d.bounds.area * d.config.fullRedrawPercent ≤ part.area * 100 then .full
      else .rect part := by
  simp only [redraw, hfull, hpart, h, Bool.not_false, Bool.true_and, Bool.false_or,
    decide_eq_true_eq, Bool.false_eq_true, if_false]

theorem hasDamage_iff : d.hasDamage = true ↔ d.redraw ≠ .nothing := by
  cases hfull : d.full with
  | true =>
    rw [redraw_of_full hfull, hasDamage, hfull, Bool.true_or]
    exact iff_of_true rfl nofun
  | false =>
    rw [hasDamage, hfull, Bool.false_or, Bool.not_eq_true']
    cases hpart : (d.pending.intersect d.bounds).isEmpty with
    | true => exact iff_of_false nofun fun h => h (redraw_of_isEmpty hfull hpart)
    | false =>
      rw [redraw_of_part hfull rfl hpart]
      split
      · exact iff_of_true rfl nofun
      · exact iff_of_true rfl nofun

theorem not_mem_of_redraw_eq_nothing (h : d.redraw = .nothing) (hp : p.OnScreen)
    (hb : p ∈ d.bounds) : d.full = false ∧ p ∉ d.pending := by
  unfold redraw at h
  dsimp only at h
  split at h
  · exact absurd h nofun
  rename_i hfull
  split at h
  · rename_i hempty
    simp only [Bool.or_eq_true, not_or, Bool.not_eq_true] at hfull
    refine ⟨hfull.1, fun hpend => ?_⟩
    exact Box.not_mem_of_isEmpty hempty ((Box.mem_intersect hp).mpr ⟨hpend, hb⟩)
  · exact absurd h nofun

theorem mem_of_redraw_eq_rect (h : d.redraw = .rect b) (hp : p.OnScreen) (hb : p ∈ d.bounds) :
    d.full = false ∧ (p ∈ d.pending → p ∈ b) := by
  unfold redraw at h
  dsimp only at h
  split at h
  · exact absurd h nofun
  rename_i hfull
  split at h
  · exact absurd h nofun
  · simp only [Bool.or_eq_true, not_or, Bool.not_eq_true] at hfull
    refine ⟨hfull.1, fun hpend => ?_⟩
    rw [← Redraw.rect.inj h]
    exact (Box.mem_intersect hp).mpr ⟨hpend, hb⟩

end Scanline.Damage

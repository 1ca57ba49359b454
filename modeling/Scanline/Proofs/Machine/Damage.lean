import Scanline.Proofs.Machine.Boxes
import Scanline.Proofs.Screen.Batch
/-! Damage in machine arithmetic. Areas of 32-bit screens fill 64 bits, so the part that calls for
all of the screen is compared in 128. Counters have 64 bits and grow by at most one with every
request. -/

namespace Scanline

/-- A tracker for a screen with 32-bit extents. The percentage has 8 bits. -/
structure Damage.InRange (d : Damage) : Prop where
  pending : d.pending.InRange
  width_le : d.width ≤ sizeMax
  height_le : d.height ≤ sizeMax
  percent_le : d.config.fullRedrawPercent ≤ 255

/-- Boxes, corners and screen sizes of 32 bits. -/
def Damage.Request.InRange : Damage.Request → Prop
  | add b => b.InRange
  | addSized x y w h => (⟨x, y, w, h⟩ : Box).InRange
  | addCorners a b => a.InRange ∧ b.InRange
  | resize width height => width ≤ sizeMax ∧ height ≤ sizeMax
  | markFull | take | flush => True

instance : (q : Damage.Request) → Decidable q.InRange
  | .add b => inferInstanceAs (Decidable b.InRange)
  | .addSized x y w h => inferInstanceAs (Decidable (⟨x, y, w, h⟩ : Box).InRange)
  | .addCorners .. | .resize .. => inferInstanceAs (Decidable (_ ∧ _))
  | .markFull | .take | .flush => inferInstanceAs (Decidable True)

namespace Machine

/-- A counter after one more event. -/
def count (n : Nat) : Except Failure Nat := do return (← u64 (n + 1 : Nat)).toNat

def addDamage (d : Damage) (b : Box) : Except Failure Damage := do
  if b.isEmpty then return d
  let boxesAdded ← count d.stats.boxesAdded
  if d.full then return { d with stats := { d.stats with boxesAdded } }
  return { d with stats := { d.stats with boxesAdded }, pending := ← union d.pending b }

def redraw (d : Damage) : Except Failure Redraw := do
  let part ← intersect d.pending d.bounds
  let threshold ← u128 ((← area d.bounds) * d.config.fullRedrawPercent)
  if d.full then return .full
  if part.isEmpty then return .nothing
  if threshold ≤ (← u128 ((← area part) * 100)) then return .full
  return .rect part

def pixels (d : Damage) : Redraw → Except Failure Int
  | .nothing => return 0
  | .full => area d.bounds
  | .rect b => area b

def take (d : Damage) : Except Failure (Redraw × Damage) := do
  let answer ← redraw d
  let flushes ← count d.stats.flushes
  let fullRedraws ← if answer = .full then count d.stats.fullRedraws else .ok d.stats.fullRedraws
  let shown ← pixels d answer
  return (answer,
    { d with
      pending := Box.empty
      full := false
      stats := { d.stats with flushes, fullRedraws, lastFlushPixels := shown.toNat } })

/-- Serves one request. -/
def serve (d : Damage) : Damage.Request → Except Failure (Option Redraw × Damage)
  | .add b => return (none, ← addDamage d b)
  | .addSized x y w h => return (none, ← addDamage d (Box.ofSize x y w h))
  | .addCorners a b => return (none, ← addDamage d (← ofCorners a b))
  | .markFull => return (none, d.markFull)
  | .resize width height => return (none, (d.resize width height).value)
  | .take | .flush => do
    let taken ← take d
    return (some taken.1, taken.2)

/-- Serves requests one after the other. The answers stand in their order. -/
def serveAll (d : Damage) : List Damage.Request → Except Failure (List Redraw × Damage)
  | [] => return ([], d)
  | q :: qs => do
    let served ← serve d q
    let rest ← serveAll served.2 qs
    return (served.1.toList ++ rest.1, rest.2)

/-- A tracker in range that has served `n` requests. -/
structure Tracked (n : Nat) (d : Damage) : Prop extends d.InRange where
  boxesAdded_le : d.stats.boxesAdded ≤ n
  flushes_le : d.stats.flushes ≤ n
  fullRedraws_le : d.stats.fullRedraws ≤ n

variable {d : Damage} {b : Box} {q : Damage.Request} {n : Nat}

theorem count_eq (h : n < 0xffffffffffffffff) : count n = .ok (n + 1) := by
  rw [count, u64_eq (by omega) (by omega)]
  rfl

section Answers

theorem screen_inRange (h : d.InRange) : d.bounds.InRange := by
  have hw := h.width_le
  have hh := h.height_le
  apply Box.inRange_ofSize
  constructor
  all_goals
    simp only [coordMin, coordMax]
    omega

theorem area_le (hb : b.InRange) : b.area ≤ 0xffffffff * 0xffffffff :=
  Nat.mul_le_mul hb.w_le hb.h_le

/-- Every comparison of areas is one of exact numbers. -/
theorem redraw_eq (h : d.InRange) : redraw d = .ok d.redraw := by
  have hscreen := screen_inRange h
  have hpart := (Box.canonical_intersect d.pending d.bounds).toInRange
  have hthreshold : d.bounds.area * d.config.fullRedrawPercent ≤ 0xffffffff * 0xffffffff * 255 :=
    Nat.mul_le_mul (area_le hscreen) h.percent_le
  have harea := area_le hpart
  rw [redraw, intersect_eq h.pending hscreen, ok_bind, area_eq hscreen, ok_bind, ← Int.natCast_mul,
    u128_eq (by omega) (by omega), ok_bind, area_eq hpart, ok_bind, u128_eq (by omega) (by omega),
    ok_bind]
  cases hfull : d.full with
  | true =>
    rw [Damage.redraw_of_full hfull]
    rfl
  | false =>
    cases hempty : (d.pending.intersect d.bounds).isEmpty with
    | true =>
      rw [Damage.redraw_of_isEmpty hfull hempty]
      rfl
    | false =>
      rw [Damage.redraw_of_part hfull rfl hempty]
      simp only [Bool.false_eq_true, if_false]
      split
      · rw [if_pos (by omega)]
        rfl
      · rw [if_neg (by omega)]
        rfl

/-- What is shown again are pixels of the screen, and their number has a word. -/
theorem pixels_eq (h : d.InRange) : pixels d d.redraw = .ok (d.pixels d.redraw : Int) := by
  unfold Damage.redraw
  dsimp only
  split
  · exact area_eq (screen_inRange h)
  split
  · rfl
  · exact area_eq (Box.canonical_intersect d.pending d.bounds).toInRange

end Answers

section Requests
variable (h : Tracked n d)
include h

theorem addDamage_eq (hn : n < 0xffffffffffffffff) (hb : b.InRange) :
    addDamage d b = .ok (d.add b) := by
  have hcount := h.boxesAdded_le
  unfold addDamage Damage.add
  split
  · rfl
  rw [count_eq (by omega), ok_bind]
  split
  · rfl
  · rw [union_eq h.pending hb]
    rfl

theorem take_eq (hn : n < 0xffffffffffffffff) : take d = .ok d.take := by
  have hflushes := h.flushes_le
  have hfull := h.fullRedraws_le
  rw [take, redraw_eq h.toInRange, ok_bind, count_eq (by omega), ok_bind, Damage.take]
  dsimp only
  split
  · rw [count_eq (by omega), ok_bind, pixels_eq h.toInRange]
    rfl
  · rw [ok_bind, pixels_eq h.toInRange]
    rfl

theorem serve_eq (hn : n < 0xffffffffffffffff) (hq : q.InRange) : serve d q = .ok (d.step q) := by
  cases q with
  | add b =>
    rw [serve, addDamage_eq h hn hq]
    rfl
  | addSized x y w k =>
    rw [serve, addDamage_eq h hn (Box.inRange_ofSize hq)]
    rfl
  | addCorners a b =>
    rw [serve, ofCorners_eq hq.1 hq.2, ok_bind,
      addDamage_eq (b := Box.ofCorners a b) h hn (Box.inRange_ofEdges _ _ _ _)]
    rfl
  | markFull => rfl
  | resize width height => rfl
  | take =>
    rw [serve, take_eq h hn]
    rfl
  | flush =>
    rw [serve, take_eq h hn]
    rfl

theorem tracked_mono {m : Nat} (hm : n ≤ m) : Tracked m d :=
  ⟨h.toInRange, Nat.le_trans h.boxesAdded_le hm, Nat.le_trans h.flushes_le hm,
    Nat.le_trans h.fullRedraws_le hm⟩

theorem tracked_add (hb : b.InRange) : Tracked (n + 1) (d.add b) := by
  unfold Damage.add
  split
  · exact tracked_mono h (Nat.le_succ n)
  · have hpending : (if d.full then d.pending else d.pending.union b).InRange := by
      split
      · exact h.pending
      · exact union_inRange h.pending hb
    exact ⟨⟨hpending, h.width_le, h.height_le, h.percent_le⟩, Nat.succ_le_succ h.boxesAdded_le,
      Nat.le_succ_of_le h.flushes_le, Nat.le_succ_of_le h.fullRedraws_le⟩

theorem tracked_take : Tracked (n + 1) d.take.2 := by
  have hfull : d.stats.fullRedraws + (if d.redraw = .full then 1 else 0) ≤ n + 1 := by
    have hbefore := h.fullRedraws_le
    split
    · omega
    · omega
  exact ⟨⟨Box.inRange_empty, h.width_le, h.height_le, h.percent_le⟩,
    Nat.le_succ_of_le h.boxesAdded_le, Nat.succ_le_succ h.flushes_le, hfull⟩

theorem tracked_step (hq : q.InRange) : Tracked (n + 1) (d.step q).2 := by
  have hlater := tracked_mono h (Nat.le_succ n)
  cases q with
  | add b => exact tracked_add h hq
  | addSized x y w k => exact tracked_add h (Box.inRange_ofSize hq)
  | addCorners a b => exact tracked_add h (Box.inRange_ofEdges _ _ _ _)
  | markFull => exact { hlater with pending := Box.inRange_empty }
  | resize width height =>
    exact { hlater with pending := Box.inRange_empty, width_le := hq.1, height_le := hq.2 }
  | take => exact tracked_take h
  | flush => exact tracked_take h

end Requests

/-- Requests leave a tracker in range, however many they are. -/
theorem tracked_run {qs : List Damage.Request} (h : Tracked n d) (hqs : ∀ q ∈ qs, q.InRange) :
    Tracked (n + qs.length) (d.run qs).2 := by
  induction qs generalizing d n with
  | nil => exact h
  | cons q qs ih =>
    obtain ⟨hq, hqs⟩ := List.forall_mem_cons.mp hqs
    rw [List.length_cons, Nat.add_comm qs.length, ← Nat.add_assoc]
    exact ih (tracked_step h hq) hqs

/-- A tracker serves less than 2^64 requests exactly. -/
theorem serveAll_eq {qs : List Damage.Request} (h : Tracked n d)
    (hn : n + qs.length ≤ 0xffffffffffffffff) (hqs : ∀ q ∈ qs, q.InRange) :
    serveAll d qs = .ok (d.run qs) := by
  induction qs generalizing d n with
  | nil => rfl
  | cons q qs ih =>
    rw [List.length_cons] at hn
    obtain ⟨hq, hqs⟩ := List.forall_mem_cons.mp hqs
    rw [serveAll, serve_eq h (by omega) hq, ok_bind, ih (tracked_step h hq) (by omega) hqs]
    rfl

theorem tracked_new {width height : Nat} {config : DamageConfig} (hw : width ≤ sizeMax)
    (hh : height ≤ sizeMax) (hpercent : config.fullRedrawPercent ≤ 255) :
    Tracked 0 (Damage.new width height config) :=
  ⟨⟨Box.inRange_empty, hw, hh, hpercent⟩, Nat.le_refl 0, Nat.le_refl 0, Nat.le_refl 0⟩

end Machine

end Scanline

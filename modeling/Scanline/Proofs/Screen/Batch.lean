import Scanline.Proofs.Box.Hull
import Scanline.Proofs.Screen.Damage
/-! What the damage amounts to over whole runs. A batch is all that was asked for since the damage
was last taken, with every box kept. The tracker keeps one box and a flag, and yet it answers what
the exact rectangle around the boxes of the batch calls for. -/

namespace Scanline

namespace Damage

inductive Request where
  | add (b : Box)
  | addSized (x y : Int) (w h : Nat)
  | addCorners (a b : Point)
  | markFull
  | resize (width height : Nat)
  | take
  | flush
deriving DecidableEq

namespace Request

/-- The box that a request adds; the empty one if it adds none. -/
def box : Request → Box
  | add b => b
  | addSized x y w h => Box.ofSize x y w h
  | addCorners a b => Box.ofCorners a b
  | markFull | resize .. | take | flush => Box.empty

/-- Boxes have coordinates and extents, and screens have the size of some pixmap. -/
def Valid : Request → Prop
  | add b => b.InRange
  | addSized x y w h => (⟨x, y, w, h⟩ : Box).InRange
  | resize width height => (width : Int) ≤ coordMax ∧ (height : Int) ≤ coordMax
  | addCorners .. | markFull | take | flush => True

instance : (q : Request) → Decidable q.Valid
  | add b => inferInstanceAs (Decidable b.InRange)
  | addSized x y w h => inferInstanceAs (Decidable (⟨x, y, w, h⟩ : Box).InRange)
  | resize _ _ => inferInstanceAs (Decidable (_ ∧ _))
  | addCorners .. | markFull | take | flush => inferInstanceAs (Decidable True)

end Request

/-- Serves one request. Taking and flushing have an answer. -/
def step (d : Damage) : Request → Option Redraw × Damage
  | .add b => (none, d.add b)
  | .addSized x y w h => (none, d.add (Box.ofSize x y w h))
  | .addCorners a b => (none, d.add (Box.ofCorners a b))
  | .markFull => (none, d.markFull)
  | .resize width height => (none, (d.resize width height).value)
  | .take => (some d.take.1, d.take.2)
  | .flush => (some d.flush.value.1, d.flush.value.2)

/-- Serves requests one after the other. The answers stand in their order. -/
def run (d : Damage) : List Request → List Redraw × Damage
  | [] => ([], d)
  | q :: qs =>
    let served := d.step q
    let rest := served.2.run qs
    (served.1.toList ++ rest.1, rest.2)

end Damage

/-- All that was asked for since the damage was last taken. -/
structure Batch where
  width : Nat
  height : Nat
  percent : Nat
  full : Bool
  /-- The boxes with pixels, the latest first. -/
  boxes : List Box

namespace Batch

def start (width height : Nat) (config : DamageConfig) : Batch :=
  ⟨width, height, config.fullRedrawPercent, config.startFull, []⟩

def insert (s : Batch) (b : Box) : Batch :=
  if b.isEmpty then s else { s with boxes := b :: s.boxes }

def step (s : Batch) : Damage.Request → Batch
  | .add b => s.insert b
  | .addSized x y w h => s.insert (Box.ofSize x y w h)
  | .addCorners a b => s.insert (Box.ofCorners a b)
  | .markFull => { s with full := true }
  | .resize width height => { s with width, height, full := true }
  | .take | .flush => { s with full := false, boxes := [] }

/-- The part on the screen of the exact rectangle around the boxes, if it has pixels. -/
def part? (s : Batch) : Option Edges :=
  match Edges.around s.boxes with
  | none => none
  | some e =>
    let part := e.onScreen s.width s.height
    if part.IsEmpty then none else some part

/-- What a batch calls for: that part, or the whole screen if it was asked for or the part is large
enough. -/
def answer (s : Batch) : Redraw :=
  if s.full then .full
  else
    match s.part? with
    | none => .nothing
    | some part =>
      if s.percent * (s.width * s.height) ≤ 100 * part.area then .full else .rect part.box

variable {s : Batch}

theorem isEmpty_part {part : Edges} (h : s.part? = some part) : part.box.isEmpty = false := by
  unfold part? at h
  split at h
  · exact absurd h nofun
  · dsimp only at h
    split at h
    · exact absurd h nofun
    · rename_i hsome
      rw [← Option.some.inj h, Box.isEmpty_eq_false_iff]
      simp only [Edges.IsEmpty, Edges.box] at hsome ⊢
      omega

/-- The part holds every pixel of a box that is on the screen. -/
theorem mem_part {b : Box} (hb : b ∈ s.boxes) {c : Point} (hc : c ∈ b)
    (hs : c ∈ Box.ofSize 0 0 s.width s.height) : ∃ part, s.part? = some part ∧ c ∈ part.box := by
  obtain ⟨e, he, hleft, htop, hright, hbottom⟩ := Edges.le_around hb
  rw [Box.mem_ofSize] at hs
  simp only [Box.mem_iff, Box.right, Box.bottom] at hc hright hbottom
  refine ⟨e.onScreen s.width s.height, ?_, ?_⟩
  · rw [part?, he]
    exact if_neg (by simp only [Edges.IsEmpty, Edges.onScreen]; omega)
  · simp only [Box.mem_iff, Edges.box, Edges.onScreen, Box.right, Box.bottom]
    omega

end Batch

/-- A pixel is shown again. -/
def Redraw.Shows (c : Point) : Redraw → Prop
  | nothing => False
  | full => True
  | rect b => c ∈ b

theorem Batch.shows_answer {s : Batch} {b : Box} (hb : b ∈ s.boxes) {c : Point} (hc : c ∈ b)
    (hs : c ∈ Box.ofSize 0 0 s.width s.height) : s.answer.Shows c := by
  obtain ⟨part, hpart, hmem⟩ := mem_part hb hc hs
  rw [answer]
  split
  · trivial
  · rw [hpart]
    dsimp only
    split
    · trivial
    · exact hmem

namespace Box

theorem area_ofSize (x y : Int) (w h : Nat) : (ofSize x y w h).area = w * h := by
  unfold ofSize
  split
  · rename_i hzero
    rcases hzero with rfl | rfl
    · exact (Nat.zero_mul h).symm
    · exact (Nat.mul_zero w).symm
  · rfl

end Box

theorem Damage.Request.Valid.inRange_box {q : Damage.Request} (h : q.Valid) : q.box.InRange := by
  cases q with
  | add b => exact h
  | addSized x y w h' => exact Box.inRange_ofSize h
  | addCorners a b => exact Box.inRange_ofEdges _ _ _ _
  | markFull | resize | take | flush => exact Box.inRange_empty

namespace Damage
variable {d : Damage} {s : Batch} {b : Box} {q : Request} {qs : List Request}

/-- The tracker knows enough of a batch to answer for it. -/
structure Tracks (d : Damage) (s : Batch) : Prop where
  width_eq : d.width = s.width
  height_eq : d.height = s.height
  percent_eq : d.config.fullRedrawPercent = s.percent
  full_eq : d.full = s.full
  width_le : (s.width : Int) ≤ coordMax
  height_le : (s.height : Int) ≤ coordMax
  boxes : ∀ b ∈ s.boxes, b.InRange ∧ b.isEmpty = false
  pending_eq : s.full = false → d.pending = Edges.cutAround s.boxes

theorem Tracks.add (h : Tracks d s) (hr : b.InRange) : Tracks (d.add b) (s.insert b) := by
  unfold Damage.add Batch.insert
  split
  · exact h
  rename_i hb
  rw [Bool.not_eq_true] at hb
  refine { h with boxes := ?_, pending_eq := fun hfull => ?_ }
  · intro b' hb'
    rcases List.mem_cons.mp hb' with rfl | hb'
    · exact ⟨hr, hb⟩
    · exact h.boxes b' hb'
  · -- Boxes are only counted once all is to be shown, and then the pending box does not matter.
    dsimp only at hfull ⊢
    rw [h.full_eq, hfull, if_neg Bool.false_ne_true, h.pending_eq hfull]
    exact Edges.union_cutAround h.boxes hr hb

theorem Tracks.take (h : Tracks d s) : Tracks d.take.2 { s with full := false, boxes := [] } :=
  { h with
    full_eq := rfl
    boxes := fun _ hb => absurd hb List.not_mem_nil
    pending_eq := fun _ => rfl }

theorem Tracks.step (h : Tracks d s) (hq : q.Valid) : Tracks (d.step q).2 (s.step q) := by
  cases q with
  | add b => exact h.add hq.inRange_box
  | addSized x y w h' => exact h.add hq.inRange_box
  | addCorners a b => exact h.add hq.inRange_box
  | markFull => exact { h with full_eq := rfl, pending_eq := nofun }
  | resize width height =>
    exact { h with
      width_eq := rfl
      height_eq := rfl
      full_eq := rfl
      width_le := hq.1
      height_le := hq.2
      pending_eq := nofun }
  | take => exact h.take
  | flush => exact h.take

theorem Tracks.run (h : Tracks d s) (hqs : ∀ q ∈ qs, q.Valid) :
    Tracks (d.run qs).2 (qs.foldl Batch.step s) := by
  induction qs generalizing d s with
  | nil => exact h
  | cons q qs ih =>
    exact ih (h.step (hqs q List.mem_cons_self)) fun q' hq' => hqs q' (List.mem_cons_of_mem _ hq')

theorem Tracks.intersect_eq (h : Tracks d s) (hfull : s.full = false) :
    d.pending.intersect d.bounds =
      match s.part? with
      | none => Box.empty
      | some part => part.box := by
  rw [bounds, h.width_eq, h.height_eq, h.pending_eq hfull, Edges.cutAround, Batch.part?]
  cases he : Edges.around s.boxes with
  | none =>
    dsimp only
    rw [Box.intersect, if_pos (by rw [Box.isEmpty_empty, Bool.true_or])]
  | some e =>
    dsimp only
    rw [(Edges.proper_of_around h.boxes he).intersect_cut h.width_le h.height_le]
    split
    · rfl
    · rfl

theorem Tracks.redraw_eq (h : Tracks d s) : d.redraw = s.answer := by
  rw [Batch.answer]
  cases hfull : s.full with
  | true => exact redraw_of_full (h.full_eq.trans hfull)
  | false =>
    have hpart := h.intersect_eq hfull
    have hscreen : d.bounds.area = s.width * s.height := by
      rw [bounds, Box.area_ofSize, h.width_eq, h.height_eq]
    rw [if_neg Bool.false_ne_true]
    cases hsome : s.part? with
    | none =>
      rw [hsome] at hpart
      exact redraw_of_isEmpty (h.full_eq.trans hfull) (by rw [hpart]; exact Box.isEmpty_empty)
    | some part =>
      rw [hsome] at hpart
      rw [redraw_of_part (h.full_eq.trans hfull) hpart (Batch.isEmpty_part hsome), hscreen,
        h.percent_eq, Nat.mul_comm, Nat.mul_comm part.box.area]
      rfl

theorem add_of_isEmpty (h : b.isEmpty = true) : d.add b = d := by
  rw [add, if_pos h]

theorem Tracks.add_comm (h : Tracks d s) {b' : Box} (hr : b.InRange) (hr' : b'.InRange) :
    (d.add b).add b' = (d.add b').add b := by
  cases hb : b.isEmpty with
  | true => rw [add_of_isEmpty hb, add_of_isEmpty hb]
  | false =>
    cases hb' : b'.isEmpty with
    | true => rw [add_of_isEmpty hb', add_of_isEmpty hb']
    | false =>
      have hunion : s.full = false →
          (d.pending.union b).union b' = (d.pending.union b').union b := by
        intro hfull
        have hmem := List.forall_mem_cons.mpr ⟨⟨hr, hb⟩, h.boxes⟩
        have hmem' := List.forall_mem_cons.mpr ⟨⟨hr', hb'⟩, h.boxes⟩
        rw [h.pending_eq hfull, Edges.union_cutAround h.boxes hr hb,
          Edges.union_cutAround h.boxes hr' hb', Edges.union_cutAround hmem hr' hb',
          Edges.union_cutAround hmem' hr hb, Edges.cutAround, Edges.cutAround,
          Edges.around_perm (.swap b b' s.boxes)]
      simp only [Damage.add, hb, hb', h.full_eq, Bool.false_eq_true, if_false]
      cases hfull : s.full with
      | true => rfl
      | false => simp only [Bool.false_eq_true, if_false, hunion hfull]

/-- The tracker ends in one state whatever the order in which boxes are added. -/
theorem Tracks.foldl_add_perm (h : Tracks d s) {bs bs' : List Box} (hr : ∀ b ∈ bs, b.InRange)
    (hperm : bs.Perm bs') : bs.foldl Damage.add d = bs'.foldl Damage.add d := by
  induction hperm generalizing d s with
  | nil => rfl
  | cons b _ ih =>
    obtain ⟨hb, hbs⟩ := List.forall_mem_cons.mp hr
    exact ih (h.add hb) hbs
  | swap b b' bs =>
    obtain ⟨hb', hb, -⟩ := And.imp_right List.forall_mem_cons.mp (List.forall_mem_cons.mp hr)
    rw [List.foldl_cons, List.foldl_cons, List.foldl_cons, List.foldl_cons, h.add_comm hb' hb]
  | trans hfirst _ ih ih' =>
    exact (ih h hr).trans (ih' h fun b hb => hr b (hfirst.mem_iff.mpr hb))

theorem stats_step (d : Damage) (q : Request) :
    (d.step q).2.stats.boxesAdded = d.stats.boxesAdded + (if q.box.isEmpty then 0 else 1) ∧
      (d.step q).2.stats.flushes = d.stats.flushes + (d.step q).1.toList.length ∧
      (d.step q).2.stats.fullRedraws = d.stats.fullRedraws + (d.step q).1.toList.count .full := by
  have htake : ∀ redraw : Redraw, [redraw].count .full = if redraw = .full then 1 else 0 := by
    intro redraw
    simp only [List.count_singleton, beq_iff_eq]
  cases q with
  | add b | addSized x y w h | addCorners b b' =>
    simp only [Damage.step, add_stats]
    exact ⟨rfl, rfl, rfl⟩
  | markFull | resize width height => exact ⟨rfl, rfl, rfl⟩
  | take | flush => exact ⟨rfl, rfl, by rw [Damage.step, Option.toList_some, htake]; rfl⟩

theorem stats_run (d : Damage) (qs : List Request) :
    (d.run qs).2.stats.boxesAdded = d.stats.boxesAdded + qs.countP (fun q => !q.box.isEmpty) ∧
      (d.run qs).2.stats.flushes = d.stats.flushes + (d.run qs).1.length ∧
      (d.run qs).2.stats.fullRedraws = d.stats.fullRedraws + (d.run qs).1.count .full := by
  induction qs generalizing d with
  | nil => exact ⟨rfl, rfl, rfl⟩
  | cons q qs ih =>
    obtain ⟨hadded, hflushes, hfulls⟩ := ih (d.step q).2
    obtain ⟨hadded', hflushes', hfulls'⟩ := stats_step d q
    simp only [run, List.countP_cons, List.length_append, List.count_append, hadded, hflushes,
      hfulls, hadded', hflushes', hfulls']
    refine ⟨?_, Nat.add_assoc _ _ _, Nat.add_assoc _ _ _⟩
    cases q.box.isEmpty with
    | true => rw [if_pos rfl, Bool.not_true, if_neg Bool.false_ne_true, Nat.add_zero, Nat.add_zero]
    | false =>
      rw [if_neg Bool.false_ne_true, Bool.not_false, if_pos rfl]
      omega

theorem tracks_new {width height : Nat} (hw : (width : Int) ≤ coordMax)
    (hh : (height : Int) ≤ coordMax) (config : DamageConfig) :
    Tracks (new width height config) (Batch.start width height config) :=
  ⟨rfl, rfl, rfl, rfl, hw, hh, fun _ hb => absurd hb List.not_mem_nil, fun _ => rfl⟩

/-- After any run, taking or flushing answers what the batch calls for, and there is damage exactly
if that is something. Boxes may be added in any order, no pixel of them on the screen is forgotten,
and the counters count boxes with pixels, answers, and answers of the whole screen. -/
theorem take_eq_answer (config : DamageConfig) {width height : Nat}
    (hw : (width : Int) ≤ coordMax) (hh : (height : Int) ≤ coordMax) {qs : List Request}
    (hqs : ∀ q ∈ qs, q.Valid) :
    let out := (new width height config).run qs
    let batch := qs.foldl Batch.step (Batch.start width height config)
    out.2.take.1 = batch.answer ∧ out.2.flush.value = out.2.take ∧
      (out.2.hasDamage = true ↔ batch.answer ≠ .nothing) ∧
      (∀ bs bs' : List Box, (∀ b ∈ bs, b.InRange) → bs.Perm bs' →
        bs.foldl add out.2 = bs'.foldl add out.2) ∧
      (∀ b ∈ batch.boxes, ∀ c ∈ b, c ∈ out.2.bounds → out.2.take.1.Shows c) ∧
      out.2.stats.boxesAdded = qs.countP (fun q => !q.box.isEmpty) ∧
      out.2.stats.flushes = out.1.length ∧ out.2.stats.fullRedraws = out.1.count .full := by
  intro out batch
  have h : Tracks out.2 batch := (tracks_new hw hh config).run hqs
  obtain ⟨hadded, hflushes, hfulls⟩ := stats_run (new width height config) qs
  refine ⟨h.redraw_eq, rfl, ?_, fun _ _ hr hperm => h.foldl_add_perm hr hperm, ?_,
    hadded.trans (Nat.zero_add _), hflushes.trans (Nat.zero_add _), hfulls.trans (Nat.zero_add _)⟩
  · rw [hasDamage_iff, h.redraw_eq]
  · intro b hb c hc hs
    rw [bounds, h.width_eq, h.height_eq] at hs
    rw [take, h.redraw_eq]
    exact Batch.shows_answer hb hc hs

/-- A run with a box as wide as boxes can be, which starts left of every screen. -/
def sampleRequests : List Request :=
  [.markFull, .take, .add ⟨coordMin, 1, sizeMax, 1⟩, .addCorners ⟨5, 5⟩ ⟨5, 5⟩, .addSized 2 3 0 9]

theorem take_eq_answer_sample :
    ((new 10 10 ⟨50, false⟩).run sampleRequests).2.take.1 = .full ∧
      ((new 20 10 ⟨60, false⟩).run sampleRequests).2.take.1 = .rect ⟨0, 1, 20, 5⟩ ∧
      ((new 20 10 ⟨60, false⟩).run sampleRequests).2.stats.boxesAdded = 2 ∧
      ((new 20 10 ⟨60, false⟩).run sampleRequests).2.stats.fullRedraws = 1 := by
  have hvalid : ∀ q ∈ sampleRequests, q.Valid := by decide
  have hten : ((10 : Nat) : Int) ≤ coordMax := by decide
  have htwenty : ((20 : Nat) : Int) ≤ coordMax := by decide
  have h := take_eq_answer ⟨50, false⟩ hten hten hvalid
  obtain ⟨hanswer, -, -, -, -, hadded, -, hfulls⟩ :=
    take_eq_answer ⟨60, false⟩ htwenty hten hvalid
  exact ⟨h.1.trans (by decide), hanswer.trans (by decide), hadded.trans (by decide),
    hfulls.trans (by decide)⟩

end Damage

end Scanline

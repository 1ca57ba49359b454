import Scanline.Proofs.Machine.Runs
import Scanline.Proofs.Shape.Circle
import Scanline.Proofs.Shape.Octant
/-! Circles in machine arithmetic. The walk along the octant has its error term in 64 bits, and the
test of a midpoint its squares in 128. A walk stays so close to the circle that the error term is
never longer than a radius squared. -/

namespace Scanline.Machine

section Walk

def startWalk (r : Int) : Except Failure Circle.Walk := return ⟨0, r, ← i64 (1 - r)⟩

def nextPoint (w : Circle.Walk) : Except Failure (Option ((Int × Int) × Circle.Walk)) := do
  if w.x > w.y then return none
  let x ← i64 (w.x + 1)
  if w.err < 0 then
    let slope ← i64 ((← i64 (2 * x)) + 1)
    return some ((w.x, w.y), ⟨x, w.y, ← i64 (w.err + slope)⟩)
  else
    let y ← i64 (w.y - 1)
    let slope ← i64 ((← i64 (2 * (← i64 (x - y)))) + 1)
    return some ((w.x, w.y), ⟨x, y, ← i64 (w.err + slope)⟩)

/-- The next row of a disk, for which the walk is looked at one point ahead. -/
def nextRow (s : Circle.Rows) : Except Failure (Option ((Int × Int) × Circle.Rows)) := do
  match s.pending with
  | some row => return some (row, ⟨s.walk, none⟩)
  | none =>
    match ← nextPoint s.walk with
    | none => return none
    | some ((x, y), walk) =>
      let lastOfHeight : Bool :=
        match ← nextPoint walk with
        | some ((_, height), _) => height != y
        | none => true
      return some ((x, y), ⟨walk, if lastOfHeight && x != y then some (y, x) else none⟩)

/-- At most `n` values of a sequence given by its steps, and what is left of it. -/
def takeSteps {σ α : Type} (next : σ → Except Failure (Option (α × σ))) :
    Nat → σ → Except Failure (List α × σ)
  | 0, s => return ([], s)
  | n + 1, s => do
    match ← next s with
    | none => return ([], s)
    | some (a, s) =>
      let rest ← takeSteps next n s
      return (a :: rest.1, rest.2)

/-- Where an exact step is also the machine's and keeps an invariant, whole runs of steps agree. -/
theorem takeSteps_eq {σ α : Type} {next : σ → Except Failure (Option (α × σ))}
    {step? : σ → Option (α × σ)} {I : σ → Prop} (hstep : ∀ s, I s → next s = .ok (step? s))
    (hkeep : ∀ s a s', I s → step? s = some (a, s') → I s') (n : Nat) {s : σ} (hs : I s) :
    takeSteps next n s = .ok (Circle.takeSteps step? n s) := by
  induction n generalizing s with
  | zero => rfl
  | succ n ih =>
    rw [takeSteps, hstep s hs, ok_bind, Circle.takeSteps]
    cases hnext : step? s with
    | none => rfl
    | some next =>
      obtain ⟨a, s'⟩ := next
      dsimp only
      rw [ih (hkeep s a s' hs hnext)]
      rfl

/-- A walk that has ended, or is at the top of the circle without pixels around, or on its way. -/
inductive Walking : Circle.Walk → Prop
  | done {w : Circle.Walk} : w.y < w.x → Walking w
  | dot : Walking ⟨0, 0, 1⟩
  | along {r : Int} {w : Circle.Walk} : 0 < r → r ≤ 0x7fffffff → w.OnCircle r → Walking w

variable {r : Int} {w : Circle.Walk}

theorem walking_start (h : r ≤ 0x7fffffff) : Walking (Circle.Walk.start r) := by
  rcases Int.lt_trichotomy r 0 with hneg | rfl | hpos
  · exact .done hneg
  · exact .dot
  · exact .along hpos h (Circle.Walk.onCircle_start hpos)

theorem nextPoint_of_bounds (hx : 0 ≤ w.x ∧ w.x ≤ 0x7fffffff) (hy : 0 ≤ w.y ∧ w.y ≤ 0x7fffffff)
    (herr : -0x4000000000000000 ≤ w.err ∧ w.err ≤ 0x4000000000000000) :
    nextPoint w = .ok w.next? := by
  unfold nextPoint Circle.Walk.next?
  split
  · rfl
  rw [i64_eq (by omega) (by omega), ok_bind]
  dsimp only
  split
  · rw [i64_eq (by omega) (by omega), ok_bind, i64_eq (by omega) (by omega), ok_bind,
      i64_eq (by omega) (by omega)]
    rfl
  · rw [i64_eq (by omega) (by omega), ok_bind, i64_eq (by omega) (by omega), ok_bind,
      i64_eq (by omega) (by omega), ok_bind, i64_eq (by omega) (by omega), ok_bind,
      i64_eq (by omega) (by omega)]
    rfl

/-- The error term of a walk on its way: the point is inside, and so the term is small. -/
theorem err_bounds (hr : 0 < r) (hmax : r ≤ 0x7fffffff) (h : w.OnCircle r) (hle : w.x ≤ w.y) :
    (0 ≤ w.x ∧ w.x ≤ r) ∧ (0 ≤ w.y ∧ w.y ≤ r) ∧
      -0x4000000000000000 ≤ w.err ∧ w.err ≤ 0x4000000000000000 := by
  have hin := h.inside_height hr hle
  have hx := h.x_nonneg
  have hbounds := Circle.le_of_inside hr hin
  rw [Circle.inside_iff] at hin
  have hrr := mul_bounds (m := 0x7fffffff) (n := 0x7fffffff) ⟨by omega, hmax⟩ ⟨by omega, hmax⟩
  have hxx := Int.mul_nonneg hx hx
  have hyy := Int.mul_nonneg (Int.le_trans hx hle) (Int.le_trans hx hle)
  have hnext : (w.x + 1) * (w.x + 1) = w.x * w.x + 2 * w.x + 1 := by ring
  have hmid : (2 * w.y - 1) * (2 * w.y - 1) = 4 * (w.y * w.y) - 4 * w.y + 1 := by ring
  have herr := h.err_eq
  omega

theorem Walking.nextPoint_eq (h : Walking w) : nextPoint w = .ok w.next? := by
  cases h with
  | done h => rw [nextPoint, if_pos h, Circle.Walk.next?_eq_none h]; rfl
  | dot => rfl
  | along hr hmax h =>
    by_cases hle : w.x ≤ w.y
    · obtain ⟨hx, hy, herr⟩ := err_bounds hr hmax h hle
      exact nextPoint_of_bounds (by omega) (by omega) herr
    · rw [nextPoint, if_pos (by omega), Circle.Walk.next?_eq_none (by omega)]; rfl

theorem Walking.next (h : Walking w) {point : Int × Int} {w' : Circle.Walk}
    (hnext : w.next? = some (point, w')) : Walking w' := by
  have hsome : ¬w.y < w.x := fun hlt => nomatch (Circle.Walk.next?_eq_none hlt).symm.trans hnext
  cases h with
  | done h => exact absurd h hsome
  | dot =>
    obtain ⟨-, rfl⟩ := Prod.mk.inj (Option.some.inj hnext)
    exact .done (by decide)
  | along hr hmax h =>
    rw [Circle.Walk.next?_eq_some (Int.not_lt.mp hsome)] at hnext
    obtain ⟨-, rfl⟩ := Prod.mk.inj (Option.some.inj hnext)
    exact .along hr hmax (h.advance hr (Int.not_lt.mp hsome))

theorem nextRow_eq {s : Circle.Rows} (h : Walking s.walk) : nextRow s = .ok s.next? := by
  unfold nextRow Circle.Rows.next?
  cases s.pending with
  | some row => rfl
  | none =>
    rw [h.nextPoint_eq]
    cases hnext : s.walk.next? with
    | none => rfl
    | some next =>
      dsimp only [ok_bind]
      rw [(h.next hnext).nextPoint_eq]
      rfl

theorem walking_nextRow {s s' : Circle.Rows} {row : Int × Int} (h : Walking s.walk)
    (hnext : s.next? = some (row, s')) : Walking s'.walk := by
  unfold Circle.Rows.next? at hnext
  split at hnext
  · obtain ⟨-, rfl⟩ := Prod.mk.inj (Option.some.inj hnext)
    exact h
  · split at hnext
    · cases hnext
    · rename_i hwalk
      obtain ⟨-, rfl⟩ := Prod.mk.inj (Option.some.inj hnext)
      exact h.next hwalk

/-- However far the octant of a radius is walked, and with it the rows of the disk, the machine goes
through the exact points. -/
theorem takeSteps_start (hr : -0x80000000 ≤ r ∧ r ≤ 0x7fffffff) (n : Nat) :
    (startWalk r >>= takeSteps nextPoint n) =
        .ok (Circle.takeSteps Circle.Walk.next? n (Circle.Walk.start r)) ∧
      (startWalk r >>= fun w => takeSteps nextRow n ⟨w, none⟩) =
        .ok (Circle.takeSteps Circle.Rows.next? n (Circle.Rows.start r)) := by
  have hstart : startWalk r = .ok (Circle.Walk.start r) := by
    rw [startWalk, i64_eq (by omega) (by omega)]
    rfl
  have hwalking := walking_start hr.2
  rw [hstart, ok_bind, ok_bind]
  constructor
  · exact takeSteps_eq (fun _ h => h.nextPoint_eq) (fun _ _ _ h => h.next) n hwalking
  · exact takeSteps_eq (I := fun s => Walking s.walk) (fun _ h => nextRow_eq h)
      (fun _ _ _ h => walking_nextRow h) n hwalking

end Walk

section Solved

/-- Whether the midpoint between rows `b - 1` and `b` of column `a` lies inside the circle. -/
def inside (r a b : Int) : Except Failure Bool := do
  let column ← i128 ((← i128 (4 * a)) * a)
  let half ← i128 ((← i128 (2 * b)) - 1)
  let row ← i128 (half * half)
  let radius ← i128 ((← i128 (4 * r)) * r)
  return (← i128 (column + row)) < radius

/-- Halves a range up to `n` times. -/
def bisect (test : Int → Except Failure Bool) : Nat → Int → Int → Except Failure Int
  | 0, lo, _ => return lo
  | n + 1, lo, hi => do
    if lo < hi then
      let length ← i64 ((← i64 (hi - lo)) + 1)
      let mid ← i64 (lo + length / 2)
      if ← test mid then bisect test n mid hi else bisect test n lo (← i64 (mid - 1))
    else return lo

/-- A range has been halved to one number before it was halved once for each of its numbers. -/
def lastWhere (test : Int → Except Failure Bool) (lo hi : Int) : Except Failure Int :=
  bisect test (hi - lo).toNat lo hi

def octantEnd (r : Int) : Except Failure Int :=
  if r = 0 then .ok 0 else lastWhere (fun x => inside r x x) 0 r

def octantHeight (r x : Int) : Except Failure Int :=
  if r = 0 then .ok 0 else lastWhere (fun y => inside r x y) 0 r

def halfWidth (r last dy : Int) : Except Failure Int :=
  if r = 0 then .ok 0
  else if dy ≤ last then octantHeight r dy
  else lastWhere (fun w => inside r w dy) 0 r

def offsets (c lo hi most : Int) : Except Failure (Int × Int) := do
  if c < lo then return (← i64 (lo - c), min (← i64 (hi - c)) most)
  else if c > hi then return (← i64 (c - hi), min (← i64 (c - lo)) most)
  else return (0, min (max (← i64 (hi - c)) (← i64 (c - lo))) most)

def circleBox (c : Point) (r : Int) : Except Failure Box := do
  if r < 0 then return Box.empty
  ofEdges (← i64 (c.x - r)) (← i64 (c.y - r)) (← i64 ((← i64 (c.x + r)) + 1))
    (← i64 ((← i64 (c.y + r)) + 1))

def columns (clip : Box) (c : Point) (r : Int) : Except Failure (List Int) := do
  let last ← octantEnd r
  let across ← offsets c.x clip.x (← lastX clip) last
  let down ← offsets c.y clip.y (← lastY clip) last
  return intRange across.1 across.2 ++
    (intRange down.1 down.2).filter fun x => !(across.1 ≤ x && x ≤ across.2)

/-- The eight mirror images of a point of the octant. -/
def mirrored (c : Point) (x y : Int) : Except Failure (List Point) := do
  let right ← i64 (c.x + x)
  let left ← i64 (c.x - x)
  let farRight ← i64 (c.x + y)
  let farLeft ← i64 (c.x - y)
  let low ← i64 (c.y + x)
  let high ← i64 (c.y - x)
  let bottom ← i64 (c.y + y)
  let top ← i64 (c.y - y)
  return [⟨right, bottom⟩, ⟨farRight, high⟩, ⟨left, top⟩, ⟨farLeft, low⟩] ++
    if x ≠ 0 ∧ x ≠ y then [⟨left, bottom⟩, ⟨farRight, low⟩, ⟨right, top⟩, ⟨farLeft, high⟩] else []

def circleRuns (clip : Box) (c : Point) (r : Int) : Except Failure (List Run) := do
  gather (fun x => do
    gather (fun p => dot clip p.x p.y) (← mirrored c x (← octantHeight r x))) (← columns clip c r)

def diskRuns (clip : Box) (c : Point) (r : Int) : Except Failure (List Run) := do
  let last ← octantEnd r
  let rows ← offsets c.y clip.y (← lastY clip) r
  gather (fun dy => do
    let w ← halfWidth r last dy
    let left ← i64 (c.x - w)
    let right ← i64 (c.x + w)
    let above ← span clip left right (← i64 (c.y - dy))
    if dy ≠ 0 then return above ++ (← span clip left right (← i64 (c.y + dy)))
    else return above ++ []) (intRange rows.1 rows.2)

variable {r a b lo hi c most : Int} {test : Int → Except Failure Bool} {exact : Int → Bool}

theorem inside_eq (hr : 0 ≤ r ∧ r ≤ 0x7fffffff) (ha : 0 ≤ a ∧ a ≤ 0x7fffffff)
    (hb : 0 ≤ b ∧ b ≤ 0x7fffffff) : inside r a b = .ok (Circle.inside r a b) := by
  have haa := mul_bounds (a := 4 * a) (b := a) (m := 0x200000000) (n := 0x80000000) (by omega)
    (by omega)
  have hbb := mul_bounds (a := 2 * b - 1) (b := 2 * b - 1) (m := 0x100000000) (n := 0x100000000)
    (by omega) (by omega)
  have hrr := mul_bounds (a := 4 * r) (b := r) (m := 0x200000000) (n := 0x80000000) (by omega)
    (by omega)
  rw [inside, i128_eq (by omega) (by omega), ok_bind, i128_eq (by omega) (by omega), ok_bind,
    i128_eq (by omega) (by omega), ok_bind, i128_eq (by omega) (by omega), ok_bind,
    i128_eq (by omega) (by omega), ok_bind, i128_eq (by omega) (by omega), ok_bind,
    i128_eq (by omega) (by omega), ok_bind, i128_eq (by omega) (by omega), ok_bind]
  rfl

theorem bisect_eq (hlo : 0 ≤ lo) (hhi : hi ≤ 0x7fffffff)
    (htest : ∀ v, lo ≤ v → v ≤ hi → test v = .ok (exact v)) {n : Nat} (hn : hi - lo ≤ n) :
    bisect test n lo hi = .ok (Circle.lastWhere exact lo hi) := by
  induction n generalizing lo hi with
  | zero =>
    rw [Circle.lastWhere, if_neg (by omega)]
    rfl
  | succ n ih =>
    rw [bisect, Circle.lastWhere]
    split
    · rename_i hlt
      rw [i64_eq (by omega) (by omega), ok_bind, i64_eq (by omega) (by omega), ok_bind,
        i64_eq (by omega) (by omega), ok_bind, htest _ (by omega) (by omega), ok_bind]
      dsimp only
      split
      · exact ih (by omega) hhi (fun v hv => htest v (by omega)) (by omega)
      · rw [i64_eq (by omega) (by omega), ok_bind]
        exact ih hlo (by omega) (fun v hv hv' => htest v hv (by omega)) (by omega)
    · rfl

theorem lastWhere_eq (hlo : 0 ≤ lo) (hhi : hi ≤ 0x7fffffff)
    (htest : ∀ v, lo ≤ v → v ≤ hi → test v = .ok (exact v)) :
    lastWhere test lo hi = .ok (Circle.lastWhere exact lo hi) :=
  bisect_eq hlo hhi htest (Int.self_le_toNat _)

section Radius
variable (hr : 0 ≤ r ∧ r ≤ 0x7fffffff)
include hr

theorem octantEnd_eq : octantEnd r = .ok (Circle.octantEnd r) := by
  unfold octantEnd Circle.octantEnd
  split
  · rfl
  · exact lastWhere_eq (Int.le_refl 0) hr.2 fun v hv hv' => inside_eq hr (by omega) (by omega)

theorem octantHeight_eq (ha : 0 ≤ a ∧ a ≤ r) :
    octantHeight r a = .ok (Circle.octantHeight r a) := by
  unfold octantHeight Circle.octantHeight
  split
  · rfl
  · exact lastWhere_eq (Int.le_refl 0) hr.2 fun v hv hv' => inside_eq hr (by omega) (by omega)

theorem halfWidth_eq (last : Int) (hb : 0 ≤ b ∧ b ≤ r) :
    halfWidth r last b = .ok (Circle.halfWidth r last b) := by
  unfold halfWidth Circle.halfWidth
  split
  · rfl
  split
  · exact octantHeight_eq hr hb
  · exact lastWhere_eq (Int.le_refl 0) hr.2 fun v hv hv' => inside_eq hr (by omega) (by omega)

end Radius

theorem offsets_eq {v : Int} (hv : -0x80000000 ≤ v ∧ v ≤ 0x7fffffff)
    (hlo : -0x80000000 ≤ lo ∧ lo ≤ 0x7fffffff) (hhi : -0x100000000 ≤ hi ∧ hi ≤ 0x17fffffff) :
    offsets v lo hi most = .ok (Circle.offsets v lo hi most) := by
  unfold offsets Circle.offsets
  split
  · rw [i64_eq (by omega) (by omega), ok_bind, i64_eq (by omega) (by omega)]
    rfl
  split
  · rw [i64_eq (by omega) (by omega), ok_bind, i64_eq (by omega) (by omega)]
    rfl
  · rw [i64_eq (by omega) (by omega), ok_bind, i64_eq (by omega) (by omega)]
    rfl

theorem offsets_le (v lo hi most : Int) : (Circle.offsets v lo hi most).2 ≤ most := by
  unfold Circle.offsets
  split
  · exact Int.min_le_right _ _
  split
  · exact Int.min_le_right _ _
  · exact Int.min_le_right _ _

section Runs
variable {clip : Box} {c : Point} (hr : 0 ≤ r ∧ r ≤ 0x7fffffff) (hc : c.InRange)
  (hclip : clip.InRange)

theorem circleBox_eq (hr : r ≤ 0x7fffffff) (hc : c.InRange) :
    circleBox c r = .ok (Circle.box c r) := by
  obtain ⟨hx, hy⟩ := point_fields hc
  unfold circleBox Circle.box
  split
  · rfl
  rw [i64_eq (by omega) (by omega), ok_bind, i64_eq (by omega) (by omega), ok_bind,
    i64_eq (by omega) (by omega), ok_bind, i64_eq (by omega) (by omega), ok_bind,
    i64_eq (by omega) (by omega), ok_bind, i64_eq (by omega) (by omega), ok_bind]
  exact ofEdges_eq (by omega) (by omega)

theorem circleBox_inRange (c : Point) (r : Int) : (Circle.box c r).InRange := by
  unfold Circle.box
  split
  · exact Box.inRange_empty
  · exact Box.inRange_ofEdges _ _ _ _

theorem mirrored_eq {x y : Int} (hc : c.InRange) (hx : 0 ≤ x ∧ x ≤ 0x7fffffff)
    (hy : 0 ≤ y ∧ y ≤ 0x7fffffff) : mirrored c x y = .ok (Circle.mirrored c x y) := by
  obtain ⟨hcx, hcy⟩ := point_fields hc
  rw [mirrored, i64_eq (by omega) (by omega), ok_bind, i64_eq (by omega) (by omega), ok_bind,
    i64_eq (by omega) (by omega), ok_bind, i64_eq (by omega) (by omega), ok_bind,
    i64_eq (by omega) (by omega), ok_bind, i64_eq (by omega) (by omega), ok_bind,
    i64_eq (by omega) (by omega), ok_bind, i64_eq (by omega) (by omega), ok_bind]
  rfl

include hr hc hclip

theorem columns_eq : columns clip c r = .ok (Circle.columns clip c r) := by
  obtain ⟨hcx, hcy⟩ := point_fields hc
  obtain ⟨hx, hy, -⟩ := box_fields hclip
  have hright := right_bounds hclip
  have hbottom := bottom_bounds hclip
  have hlast : clip.lastX = clip.right - 1 ∧ clip.lastY = clip.bottom - 1 := ⟨rfl, rfl⟩
  rw [columns, octantEnd_eq hr, ok_bind, lastX_eq hclip, ok_bind, offsets_eq hcx hx (by omega),
    ok_bind, lastY_eq hclip, ok_bind, offsets_eq hcy hy (by omega)]
  rfl

omit hr hc hclip in
theorem columns_bounds {x : Int} (hx : x ∈ Circle.columns clip c r) :
    0 ≤ x ∧ x ≤ Circle.octantEnd r := by
  have hacross := offsets_le c.x clip.x clip.lastX (Circle.octantEnd r)
  have hacross' := Circle.offsets_nonneg c.x clip.x clip.lastX (Circle.octantEnd r)
  have hdown := offsets_le c.y clip.y clip.lastY (Circle.octantEnd r)
  have hdown' := Circle.offsets_nonneg c.y clip.y clip.lastY (Circle.octantEnd r)
  simp only [Circle.columns, List.mem_append, List.mem_filter, mem_intRange] at hx
  omega

theorem circleRuns_eq (hs : clip.OnScreen) :
    circleRuns clip c r = .ok (Circle.outlineRuns clip c r) := by
  rw [circleRuns, columns_eq hr hc hclip]
  apply gather_eq
  intro x hx
  have hx' := columns_bounds hx
  have hend := Circle.octantEnd_bounds hr.1
  have hheight := Circle.octantHeight_bounds hr.1 x
  rw [octantHeight_eq hr (by omega), ok_bind, mirrored_eq hc (by omega) (by omega), ok_bind]
  apply gather_eq
  exact fun q _ => dot_eq hclip hs q.x q.y

theorem diskRuns_eq (hs : clip.OnScreen) :
    diskRuns clip c r = .ok (Circle.diskRuns clip c r) := by
  obtain ⟨hcx, hcy⟩ := point_fields hc
  obtain ⟨-, hy, -⟩ := box_fields hclip
  have hbottom := bottom_bounds hclip
  have hlast : clip.lastY = clip.bottom - 1 := rfl
  rw [diskRuns, octantEnd_eq hr, ok_bind, lastY_eq hclip, ok_bind, offsets_eq hcy hy (by omega)]
  apply gather_eq
  intro dy hdy
  have hle := offsets_le c.y clip.y clip.lastY r
  have hnonneg := Circle.offsets_nonneg c.y clip.y clip.lastY r
  rw [mem_intRange] at hdy
  have hwidth := Circle.halfWidth_bounds hr.1 (Circle.octantEnd r) dy
  rw [halfWidth_eq hr _ (by omega), ok_bind, i64_eq (by omega) (by omega), ok_bind,
    i64_eq (by omega) (by omega), ok_bind, i64_eq (by omega) (by omega), ok_bind,
    span_eq hclip hs, ok_bind]
  split
  · rw [i64_eq (by omega) (by omega), ok_bind, span_eq hclip hs]
    rfl
  · rfl

end Runs

end Solved

end Scanline.Machine

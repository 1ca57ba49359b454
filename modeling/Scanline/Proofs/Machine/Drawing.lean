import Scanline.Proofs.Machine.Circle
import Scanline.Proofs.Machine.Frames
import Scanline.Proofs.Machine.Polygons
import Scanline.Proofs.Pixmap.Draw
/-! Drawing in machine arithmetic. With coordinates and radii of 32 bits every shape has its exact
runs, every pixel of them is reached by its exact address, and so the machine draws what is to be
drawn. -/

namespace Scanline

/-- All coordinates of a shape, and the radius of a round one, fit 32 bits with a sign. -/
def Shape.InRange : Shape → Prop
  | point p => p.InRange
  | circle c r | disk c r => c.InRange ∧ coordMin ≤ r ∧ r ≤ coordMax
  | hline x0 x1 y => (⟨x0, y⟩ : Point).InRange ∧ (⟨x1, y⟩ : Point).InRange
  | vline x y0 y1 => (⟨x, y0⟩ : Point).InRange ∧ (⟨x, y1⟩ : Point).InRange
  | line a b | rect a b | solidRect a b => a.InRange ∧ b.InRange
  | tetragon t | solidTetragon t => t.InRange

namespace Machine

def shapeBox : Shape → Except Failure Box
  | .point p => .ok (Box.ofSize p.x p.y 1 1)
  | .circle c r | .disk c r => circleBox c r
  | .hline x0 x1 y => ofCorners ⟨x0, y⟩ ⟨x1, y⟩
  | .vline x y0 y1 => ofCorners ⟨x, y0⟩ ⟨x, y1⟩
  | .line a b | .rect a b | .solidRect a b => ofCorners a b
  | .tetragon t | .solidTetragon t => tetragonBox t

/-- The runs of a shape whose box has a given part in the clip. A shape along an axis is cut to the
clip in any case, the others are passed over where they have no part in it. -/
def shapeRuns (clip part : Box) : Shape → Except Failure (List Run)
  | .point p => dot clip p.x p.y
  | .circle c r => if part.isEmpty then .ok [] else circleRuns clip c r
  | .disk c r => if part.isEmpty then .ok [] else diskRuns clip c r
  | .hline x0 x1 y => span clip x0 x1 y
  | .vline x y0 y1 => column clip x y0 y1
  | .line a b => if part.isEmpty then .ok [] else lineRuns clip a b
  | .rect a b => if part.isEmpty then .ok [] else rectRuns clip a b
  | .solidRect a b => if part.isEmpty then .ok [] else solidRectRuns clip a b
  | .tetragon t => if part.isEmpty then .ok [] else sidesRuns clip t
  | .solidTetragon t => if part.isEmpty then .ok [] else solidRuns clip t

def transformTetragon (f : Frame) (t : Tetragon) : Except Failure Tetragon := do
  return ⟨← transformPoint f t.a, ← transformPoint f t.b, ← transformPoint f t.c,
    ← transformPoint f t.d⟩

/-- A shape between two points as it stands in the buffer. -/
def orientEnds (f : Frame) (make : Point → Point → Shape) (a b : Point) : Except Failure Shape := do
  return make (← transformPoint f a) (← transformPoint f b)

/-- The shape in the buffer that an oriented shape shows. -/
def orient (f : Frame) : Shape → Except Failure Shape
  | .point p => return .point (← transformPoint f p)
  | .circle c r => return .circle (← transformPoint f c) r
  | .disk c r => return .disk (← transformPoint f c) r
  | .hline x0 x1 y => orientEnds f .solidRect ⟨x0, y⟩ ⟨x1, y⟩
  | .vline x y0 y1 => orientEnds f .solidRect ⟨x, y0⟩ ⟨x, y1⟩
  | .line a b => orientEnds f .line a b
  | .rect a b => orientEnds f .rect a b
  | .solidRect a b => orientEnds f .solidRect a b
  | .tetragon t => return .tetragon (← transformTetragon f t)
  | .solidTetragon t => return .solidTetragon (← transformTetragon f t)

/-- Writes `n` neighbouring pixels of row `y` from `x` on. -/
def writeRun (f : Frame) (v : Pixel) (y : Nat) :
    (n x : Nat) → ByteArray → Except Failure ByteArray
  | 0, _, data => return data
  | n + 1, x, data => do
    reach f x y
    writeRun f v y n (x + 1) (← f.format.depth.write data (y * f.stride) x v)

def writeRuns (f : Frame) (v : Pixel) : List Run → ByteArray → Except Failure ByteArray
  | [], data => return data
  | r :: rest, data => do
    writeRuns f v rest
      (← writeRun f v r.y.toNat (r.last + 1 - r.first).toNat r.first.toNat data)

def draw (p : Pixmap) (s : Shape) (v : Pixel) : Except Failure (Box × Pixmap) := do
  let clip ← clipRect p.toFrame
  let part ← intersect (← shapeBox s) clip
  let data ← writeRuns p.toFrame v (← shapeRuns clip part s) p.data
  return (part, ⟨p.toFrame, data⟩)

def drawOriented (p : Pixmap) (s : Shape) (v : Pixel) : Except Failure (Box × Pixmap) := do
  draw p (← orient p.toFrame s) v

variable {p : Pixmap} {s : Shape} {clip : Box} {v : Pixel}

theorem shapeBox_eq (h : s.InRange) : shapeBox s = .ok s.box := by
  cases s with
  | point p => rfl
  | circle c r => exact circleBox_eq h.2.2 h.1
  | disk c r => exact circleBox_eq h.2.2 h.1
  | hline x0 x1 y => exact ofCorners_eq h.1 h.2
  | vline x y0 y1 => exact ofCorners_eq h.1 h.2
  | line a b => exact ofCorners_eq h.1 h.2
  | rect a b => exact ofCorners_eq h.1 h.2
  | solidRect a b => exact ofCorners_eq h.1 h.2
  | tetragon t => exact tetragonBox_eq h
  | solidTetragon t => exact tetragonBox_eq h

theorem box_inRange (h : s.InRange) : s.box.InRange := by
  have hone : 1 ≤ sizeMax := by decide
  cases s with
  | point p => exact Box.inRange_ofSize ⟨h.x_ge, h.x_le, h.y_ge, h.y_le, hone, hone⟩
  | circle c r => exact circleBox_inRange c r
  | disk c r => exact circleBox_inRange c r
  | hline x0 x1 y => exact Box.inRange_ofEdges _ _ _ _
  | vline x y0 y1 => exact Box.inRange_ofEdges _ _ _ _
  | line a b => exact Box.inRange_ofEdges _ _ _ _
  | rect a b => exact Box.inRange_ofEdges _ _ _ _
  | solidRect a b => exact Box.inRange_ofEdges _ _ _ _
  | tetragon t => exact Box.inRange_ofEdges _ _ _ _
  | solidTetragon t => exact Box.inRange_ofEdges _ _ _ _

section Runs
variable (hs : clip.OnScreen)
include hs

/-- A shape along an axis has no runs where its box has no part in the clip. -/
theorem runs_eq_runsIn (hpoints : ∀ c ∈ Run.points (s.runsIn clip), c ∈ clip ∧ c ∈ s.pixels)
    (hruns : ∀ r ∈ s.runsIn clip, r.first ≤ r.last) : s.runs clip = s.runsIn clip := by
  unfold Shape.runs
  split
  · rename_i hpart
    symm
    apply List.eq_nil_iff_forall_not_mem.mpr
    intro r hr
    obtain ⟨hclip, hpixel⟩ := hpoints ⟨r.first, r.y⟩ ⟨r, hr, rfl, Int.le_refl _, hruns r hr⟩
    have hbox := Shape.pixels_subset_box (hs _ hclip) hpixel
    exact Box.not_mem_of_isEmpty hpart (hs.mem_intersect.mpr ⟨hbox, hclip⟩)
  · rfl

theorem runs_point (q : Point) : (Shape.point q).runs clip = Run.dot clip q.x q.y := by
  apply runs_eq_runsIn hs
  · exact fun c hc => Run.mem_points_dot.mp hc
  · intro r hr
    simp only [Shape.runsIn, Run.dot] at hr
    split at hr
    · rw [List.mem_singleton.mp hr]
    · cases hr

theorem runs_hline (x0 x1 y : Int) : (Shape.hline x0 x1 y).runs clip = Run.span clip x0 x1 y := by
  apply runs_eq_runsIn hs
  · intro c hc
    rw [Shape.runsIn, Run.mem_points_span] at hc
    exact ⟨hc.1, Rect.mem_solid.mpr (by dsimp only; omega)⟩
  · intro r hr
    simp only [Shape.runsIn, Run.span] at hr
    split at hr
    · cases hr
    split at hr
    · rename_i hle
      rw [List.mem_singleton.mp hr]
      exact hle
    · cases hr

theorem runs_vline (x y0 y1 : Int) :
    (Shape.vline x y0 y1).runs clip = Run.column clip x y0 y1 := by
  apply runs_eq_runsIn hs
  · intro c hc
    rw [Shape.runsIn, Run.mem_points_column] at hc
    exact ⟨hc.1, Rect.mem_solid.mpr (by dsimp only; omega)⟩
  · intro r hr
    simp only [Shape.runsIn, Run.column] at hr
    split at hr
    · cases hr
    · obtain ⟨y, -, rfl⟩ := List.mem_map.mp hr
      exact Int.le_refl x

variable (hclip : clip.InRange)
include hclip

theorem shapeRuns_eq (h : s.InRange) :
    shapeRuns clip (s.box.intersect clip) s = .ok (s.runs clip) := by
  have hguard {machine : Except Failure (List Run)}
      (hruns : ¬(s.box.intersect clip).isEmpty → machine = .ok (s.runsIn clip)) :
      (if (s.box.intersect clip).isEmpty then .ok [] else machine) = .ok (s.runs clip) := by
    unfold Shape.runs
    split
    · rfl
    · rename_i hpart
      exact hruns hpart
  cases s with
  | point q => rw [runs_point hs]; exact dot_eq hclip hs _ _
  | circle c r =>
    exact hguard fun hpart => circleRuns_eq ⟨Shape.radius_nonneg hpart, h.2.2⟩ h.1 hclip hs
  | disk c r =>
    exact hguard fun hpart => diskRuns_eq ⟨Shape.radius_nonneg hpart, h.2.2⟩ h.1 hclip hs
  | hline x0 x1 y => rw [runs_hline hs]; exact span_eq hclip hs _ _ _
  | vline x y0 y1 => rw [runs_vline hs]; exact column_eq hclip hs _ _ _
  | line a b => exact hguard fun _ => lineRuns_eq hclip hs h.1 h.2
  | rect a b => exact hguard fun _ => rectRuns_eq hclip hs h.1 h.2
  | solidRect a b => exact hguard fun _ => solidRectRuns_eq hclip hs h.1 h.2
  | tetragon t => exact hguard fun _ => sidesRuns_eq hclip hs h
  | solidTetragon t => exact hguard fun _ => solidRuns_eq hclip hs h

end Runs

theorem writeRun_eq (hp : p.Valid) {y n x : Nat} (hy : y < p.height) (hx : x + n ≤ p.width)
    (data : ByteArray) : writeRun p.toFrame v y n x data =
      p.format.depth.writeRun data (y * p.stride) v n x := by
  induction n generalizing x data with
  | zero => rfl
  | succ n ih =>
    rw [writeRun, reach_eq hp (by omega) hy, ok_bind, Depth.writeRun]
    cases p.format.depth.write data (y * p.stride) x v with
    | error e => rfl
    | ok data' => exact ih (by omega) data'

theorem writeRuns_eq (hp : p.Valid) {rs : List Run} (h : ∀ r ∈ rs, ∀ c ∈ r, c ∈ p.bounds)
    (data : ByteArray) :
    writeRuns p.toFrame v rs data = Scanline.writeRuns p.format.depth p.stride v rs data := by
  induction rs generalizing data with
  | nil => rfl
  | cons r rest ih =>
    have hr := h r List.mem_cons_self
    have hrun : writeRun p.toFrame v r.y.toNat (r.last + 1 - r.first).toNat r.first.toNat data =
        p.format.depth.writeRun data (r.y.toNat * p.stride) v (r.last + 1 - r.first).toNat
          r.first.toNat := by
      by_cases hle : r.first ≤ r.last
      · have hfirst := Frame.mem_bounds.mp (hr ⟨r.first, r.y⟩ (Run.mem_iff.mpr (by simp [hle])))
        have hlast := Frame.mem_bounds.mp (hr ⟨r.last, r.y⟩ (Run.mem_iff.mpr (by simp [hle])))
        dsimp only at hfirst hlast
        exact writeRun_eq hp (by omega) (by omega) data
      · have hnone : (r.last + 1 - r.first).toNat = 0 := by omega
        rw [hnone]
        rfl
    rw [writeRuns, hrun, Scanline.writeRuns]
    cases p.format.depth.writeRun data (r.y.toNat * p.stride) v (r.last + 1 - r.first).toNat
        r.first.toNat with
    | error e => rfl
    | ok data' => exact ih (fun r' hr' => h r' (List.mem_cons_of_mem _ hr')) data'

theorem draw_eq (hp : Held p) (h : s.InRange) (v : Pixel) : draw p s v = p.draw s v := by
  have hclip := clipRect_inRange hp.toValid
  have hs := hp.toValid.clipRect_onScreen
  have hin : ∀ r ∈ s.runs p.clipRect, ∀ c ∈ r, c ∈ p.bounds := fun r hr c hc =>
    hp.toValid.mem_bounds_of_mem_clipRect ((Shape.mem_points_runs hs).mp ⟨r, hr, hc⟩).1
  rw [draw, clipRect_eq hp, ok_bind, shapeBox_eq h, ok_bind, intersect_eq (box_inRange h) hclip,
    ok_bind, shapeRuns_eq hs hclip h, ok_bind, writeRuns_eq hp.toValid hin, Pixmap.draw]
  cases Scanline.writeRuns p.format.depth p.stride v (s.runs p.clipRect) p.data with
  | error e => rfl
  | ok data => rfl

theorem transformTetragon_eq (hp : p.Valid) {t : Tetragon} (ht : t.InRange) :
    transformTetragon p.toFrame t = .ok (t.map p.transformPoint) := by
  rw [transformTetragon, transformPoint_eq hp ht.a, ok_bind, transformPoint_eq hp ht.b, ok_bind,
    transformPoint_eq hp ht.c, ok_bind, transformPoint_eq hp ht.d]
  rfl

theorem orientEnds_eq (hp : p.Valid) (make : Point → Point → Shape) {a b : Point}
    (h : a.InRange ∧ b.InRange) : orientEnds p.toFrame make a b =
      .ok (make (p.transformPoint a) (p.transformPoint b)) := by
  rw [orientEnds, transformPoint_eq hp h.1, ok_bind, transformPoint_eq hp h.2]
  rfl

theorem orient_eq (hp : p.Valid) (h : s.InRange) :
    orient p.toFrame s = .ok (s.orient p.toFrame) := by
  cases s with
  | point p => rw [orient, transformPoint_eq hp h]; rfl
  | circle c r => rw [orient, transformPoint_eq hp h.1]; rfl
  | disk c r => rw [orient, transformPoint_eq hp h.1]; rfl
  | hline x0 x1 y => exact orientEnds_eq hp .solidRect h
  | vline x y0 y1 => exact orientEnds_eq hp .solidRect h
  | line a b => exact orientEnds_eq hp .line h
  | rect a b => exact orientEnds_eq hp .rect h
  | solidRect a b => exact orientEnds_eq hp .solidRect h
  | tetragon t => rw [orient, transformTetragon_eq hp h]; rfl
  | solidTetragon t => rw [orient, transformTetragon_eq hp h]; rfl

theorem orient_inRange (f : Frame) (h : s.InRange) : (s.orient f).InRange := by
  have hpoint {q : Point} (hq : q.InRange) := transformPoint_inRange f hq
  cases s with
  | point p => exact hpoint h
  | circle c r => exact ⟨hpoint h.1, h.2⟩
  | disk c r => exact ⟨hpoint h.1, h.2⟩
  | hline x0 x1 y => exact ⟨hpoint h.1, hpoint h.2⟩
  | vline x y0 y1 => exact ⟨hpoint h.1, hpoint h.2⟩
  | line a b => exact ⟨hpoint h.1, hpoint h.2⟩
  | rect a b => exact ⟨hpoint h.1, hpoint h.2⟩
  | solidRect a b => exact ⟨hpoint h.1, hpoint h.2⟩
  | tetragon t => exact ⟨hpoint h.a, hpoint h.b, hpoint h.c, hpoint h.d⟩
  | solidTetragon t => exact ⟨hpoint h.a, hpoint h.b, hpoint h.c, hpoint h.d⟩

theorem drawOriented_eq (hp : Held p) (h : s.InRange) (v : Pixel) :
    drawOriented p s v = p.drawOriented s v := by
  rw [drawOriented, orient_eq hp.toValid h]
  exact draw_eq hp (orient_inRange _ h) v

end Machine

end Scanline

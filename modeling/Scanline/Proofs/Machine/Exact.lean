import Scanline.Proofs.Machine.Damage
import Scanline.Proofs.Machine.Drawing
import Scanline.Proofs.Machine.OrientedCopies
import Scanline.Proofs.Pixmap.Contained
/-! Wide arithmetic is exact. On arguments of 32 bits no step of the machine leaves its word and no
number loses bits on its way into a narrower one: boxes, circles, shapes, copies and damage have the
results that unbounded integers give them. -/

namespace Scanline.Machine

/-- A computation of the machine answers what the exact one does, and that is not a fault. -/
structure Agree {α : Type} (machine exact : Except Failure α) : Prop where
  eq : machine = exact
  no_fault : ∀ f, exact ≠ .error (.fault f)

theorem Agree.ok {α : Type} {machine : Except Failure α} {a : α} (h : machine = .ok a) :
    Agree machine (.ok a) := ⟨h, nofun⟩

/-- A copy by the machine answers what the exact one does. All that can stop it is a pixel that
takes a division by zero, and known formats have none. -/
structure AgreeOnCopy (src dst : Format) (machine exact : Except Failure (Box × Pixmap)) :
    Prop where
  eq : machine = exact
  fault_eq : ∀ f, exact = .error (.fault f) → f = .zeroDivision
  no_fault : src.Known → dst.Known → ∀ f, exact ≠ .error (.fault f)

/-- Every operation on two boxes and two points. -/
structure AgreeOnBoxes (a b : Box) (p q : Point) : Prop where
  right : Agree (right a) (.ok a.right)
  bottom : Agree (bottom a) (.ok a.bottom)
  lastX : Agree (lastX a) (.ok a.lastX)
  lastY : Agree (lastY a) (.ok a.lastY)
  area : Agree (area a) (.ok (a.area : Int))
  ofCorners : Agree (ofCorners p q) (.ok (Box.ofCorners p q))
  union : Agree (union a b) (.ok (a.union b))
  intersect : Agree (intersect a b) (.ok (a.intersect b))
  translate : Agree (translate a p.x p.y) (.ok (a.translate p.x p.y))
  contains : Agree (contains a p) (.ok (decide (p ∈ a)))
  covers : Agree (covers a b) (.ok (a.covers b))

/-- The points of an octant and the rows of a disk, however many are asked for. -/
structure AgreeOnWalk (r : Int) (n : Nat) : Prop where
  points : Agree (startWalk r >>= takeSteps nextPoint n)
    (.ok (Circle.takeSteps Circle.Walk.next? n (Circle.Walk.start r)))
  rows : Agree (startWalk r >>= fun w => takeSteps nextRow n ⟨w, none⟩)
    (.ok (Circle.takeSteps Circle.Rows.next? n (Circle.Rows.start r)))

structure AgreeOnDrawing (p : Pixmap) (s : Shape) (v : Pixel) : Prop where
  draw : Agree (draw p s v) (p.draw s v)
  drawOriented : Agree (drawOriented p s v) (p.drawOriented s v)

structure AgreeOnFrame (f : Frame) (q : Point) (b : Box) : Prop where
  transformPoint : Agree (transformPoint f q) (.ok (f.transformPoint q))
  transformBox : Agree (transformBox f b) (.ok (f.transformBox b))

/-- Copies to `q` of the window between two corners, and of one given as a box. -/
structure AgreeOnCopies (dst src : Pixmap) (a b q : Point) (box : Box) : Prop where
  blit : AgreeOnCopy src.format dst.format (blit dst src (Window.ofCorners a b) q)
    (dst.blit src (Window.ofCorners a b) q).result
  blitClipped : AgreeOnCopy src.format dst.format (blitClipped dst src (Window.ofCorners a b) q)
    (dst.blitClipped src (Window.ofCorners a b) q).result
  blitSized : AgreeOnCopy src.format dst.format (blitSized dst src box.x box.y box.w box.h q)
    (dst.blitSized src box.x box.y box.w box.h q).result
  blitSizedClipped : AgreeOnCopy src.format dst.format
    (blitSizedClipped dst src box.x box.y box.w box.h q)
    (dst.blitSizedClipped src box.x box.y box.w box.h q).result
  blitOriented : AgreeOnCopy src.format dst.format
    (blitOriented dst src (Window.ofCorners a b) q)
    (dst.blitOriented src (Window.ofCorners a b) q).result
  blitOrientedClipped : AgreeOnCopy src.format dst.format
    (blitOrientedClipped dst src (Window.ofCorners a b) q)
    (dst.blitOrientedClipped src (Window.ofCorners a b) q).result

/-- What a tracker that has served some requests has to show again. Its counters have 64 bits: they
are the only numbers that grow with the requests. -/
structure AgreeOnDamage (d : Damage) (qs : List Damage.Request) : Prop where
  redraw : Agree (redraw (d.run qs).2) (.ok (d.run qs).2.redraw)
  pixels : Agree (pixels (d.run qs).2 (d.run qs).2.redraw)
    (.ok ((d.run qs).2.pixels (d.run qs).2.redraw : Int))
  serveAll : qs.length < 2 ^ 64 → Agree (serveAll d qs) (.ok (d.run qs))

section Boxes
variable {a b : Box} {p q : Point}

theorem agreeOnBoxes (ha : a.InRange) (hb : b.InRange) (hp : p.InRange) (hq : q.InRange) :
    AgreeOnBoxes a b p q where
  right := .ok (right_eq ha)
  bottom := .ok (bottom_eq ha)
  lastX := .ok (lastX_eq ha)
  lastY := .ok (lastY_eq ha)
  area := .ok (area_eq ha)
  ofCorners := .ok (ofCorners_eq hp hq)
  union := .ok (union_eq ha hb)
  intersect := .ok (intersect_eq ha hb)
  translate := .ok (translate_eq ha hp)
  contains := .ok (contains_eq ha p)
  covers := .ok (covers_eq ha hb)

end Boxes

theorem agreeOnDrawing {p : Pixmap} (hp : Held p) {s : Shape} (h : s.InRange) (v : Pixel) :
    AgreeOnDrawing p s v := by
  have hdraw (s : Shape) : ∀ f, p.draw s v ≠ .error (.fault f) := by
    obtain ⟨q, hq, -⟩ := hp.toValid.draw s v
    rw [hq]
    exact nofun
  exact ⟨⟨draw_eq hp h v, hdraw s⟩, ⟨drawOriented_eq hp h v, hdraw (s.orient p.toFrame)⟩⟩

section Copies
variable {src dst : Pixmap} (hs : src.Valid) (hd : dst.Valid)
variable {r : Window} {a b q : Point} {box : Box}

/-- A copy that never leaves a buffer faults at most at a pixel without a color. -/
theorem AgreeOnCopy.of_ends {S : Set Point} {machine exact : Except Failure (Box × Pixmap)}
    (heq : machine = exact) (h : Pixmap.Ends src dst.format S exact) :
    AgreeOnCopy src.format dst.format machine exact where
  eq := heq
  fault_eq f hf := h.fault_eq hf
  no_fault hsf hdf f hf := by
    obtain ⟨answer, hok⟩ := h.exists_ok hsf hdf
    rw [hok] at hf
    cases hf

/-- A copy that is refused does not fault. -/
theorem AgreeOnCopy.refused {m : Misuse} {machine : Except Failure (Box × Pixmap)}
    (h : machine = .error (.misuse m)) :
    AgreeOnCopy src.format dst.format machine (.error (.misuse m)) where
  eq := h
  fault_eq := nofun
  no_fault := nofun

include hs hd

theorem agreeOnBlit (hr : r.InRange) (hx : r.left ≤ r.right) (hy : r.top ≤ r.bottom)
    (hq : q.InRange) : AgreeOnCopy src.format dst.format (blit dst src r q)
      (dst.blit src r q).result := by
  have heq := blit_eq hs hd hr hx hy hq
  rw [Pixmap.blit] at heq ⊢
  cases hplaced : Pixmap.placed src.toFrame dst.toFrame r q with
  | error m =>
    rw [hplaced] at heq
    exact .refused heq
  | ok b =>
    rw [hplaced] at heq
    exact .of_ends heq (hs.copyNoted_ends hd (checked_inside hx hy hplaced))

theorem agreeOnBlitOriented (hr : r.InRange) (hx : r.left ≤ r.right) (hy : r.top ≤ r.bottom)
    (hq : q.InRange) : AgreeOnCopy src.format dst.format (blitOriented dst src r q)
      (dst.blitOriented src r q).result := by
  have heq := blitOriented_eq hs hd hr hx hy hq
  rw [Pixmap.blitOriented] at heq ⊢
  cases hplaced : Pixmap.placedOriented src.toFrame dst.toFrame r q with
  | error m =>
    rw [hplaced] at heq
    exact .refused heq
  | ok b =>
    rw [hplaced] at heq
    exact .of_ends heq (hs.copyOriented_ends hd (checked_inside hx hy hplaced))

theorem agreeOnBlitSized (hbox : box.InRange) (hq : q.InRange) :
    AgreeOnCopy src.format dst.format (blitSized dst src box.x box.y box.w box.h q)
      (dst.blitSized src box.x box.y box.w box.h q).result := by
  rw [blitSized, windowOfSize?_eq hbox, ok_bind, Pixmap.blitSized]
  cases hwindow : Window.ofSize? box.x box.y box.w box.h with
  | none => exact .of_ends (S := ∅) rfl (.ok _)
  | some r =>
    obtain ⟨hw, hh, hr⟩ := Window.ofSize?_eq_some hwindow
    exact agreeOnBlit hs hd (inRange_ofSize? hbox hwindow) (by rw [hr]; dsimp only; omega)
      (by rw [hr]; dsimp only; omega) hq

theorem agreeOnCopies (ha : a.InRange) (hb : b.InRange) (hq : q.InRange) (hbox : box.InRange) :
    AgreeOnCopies dst src a b q box := by
  have hr := inRange_ofCorners ha hb
  obtain ⟨hx, hy⟩ := Window.ofCorners_le a b
  exact {
    blit := agreeOnBlit hs hd hr hx hy hq
    blitClipped := .of_ends (blitClipped_eq hs hd hr hq) (hs.blitClipped_ends hd _ q)
    blitSized := agreeOnBlitSized hs hd hbox hq
    blitSizedClipped := .of_ends (blitSizedClipped_eq hs hd hbox hq)
      (hs.blitSizedClipped_ends hd _ _ _ _ q)
    blitOriented := agreeOnBlitOriented hs hd hr hx hy hq
    blitOrientedClipped := .of_ends (blitOrientedClipped_eq hs hd hr hq)
      (hs.blitOrientedClipped_ends hd _ q) }

end Copies

theorem agreeOnDamage {width height : Nat} {config : DamageConfig} (hw : width ≤ sizeMax)
    (hh : height ≤ sizeMax) (hpercent : config.fullRedrawPercent ≤ 255)
    {qs : List Damage.Request} (hqs : ∀ q ∈ qs, q.InRange) :
    AgreeOnDamage (Damage.new width height config) qs := by
  have hnew := tracked_new hw hh hpercent
  have hlater := (tracked_run hnew hqs).toInRange
  exact ⟨.ok (redraw_eq hlater), .ok (pixels_eq hlater), fun hlen =>
    .ok (serveAll_eq hnew (by omega) hqs)⟩

/-- Whatever the 32-bit arguments, the valid pixmaps and the requests to a tracker: nothing
overflows, nothing is cut off, and the results are those of unbounded integers. A copy may stop at a
pixel that has no color in its format, but not between formats of a registry. -/
theorem wide_arithmetic_exact {a b : Box} (ha : a.InRange) (hb : b.InRange) {p q o : Point}
    (hp : p.InRange) (hq : q.InRange) (ho : o.InRange) {r : Int} (hr : coordMin ≤ r ∧ r ≤ coordMax)
    (n : Nat) {src dst : Pixmap} (hs : Held src) (hd : Held dst) {s : Shape} (hshape : s.InRange)
    (v : Pixel) {width height : Nat} (hw : width ≤ sizeMax) (hh : height ≤ sizeMax)
    {config : DamageConfig} (hpercent : config.fullRedrawPercent ≤ 255)
    {requests : List Damage.Request} (hrequests : ∀ request ∈ requests, request.InRange) :
    AgreeOnBoxes a b p q ∧ AgreeOnWalk r n ∧ AgreeOnDrawing dst s v ∧ AgreeOnFrame dst.toFrame p a ∧
      AgreeOnCopies dst src p q o a ∧ AgreeOnDamage (Damage.new width height config) requests := by
  obtain ⟨hpoints, hrows⟩ := takeSteps_start hr n
  exact ⟨agreeOnBoxes ha hb hp hq, ⟨.ok hpoints, .ok hrows⟩, agreeOnDrawing hd hshape v,
    ⟨.ok (transformPoint_eq hd.toValid hp), .ok (transformBox_eq hd.toValid ha)⟩,
    agreeOnCopies hs.toValid hd.toValid hp hq ho ha, agreeOnDamage hw hh hpercent hrequests⟩

theorem sample_held : Held Pixmap.sample where
  toValid := Pixmap.sample_valid
  clip_inRange c hc := by
    rw [← Option.some.inj hc]
    decide

theorem sample16_held : Held Pixmap.sample16 where
  toValid := Pixmap.sample16_valid
  clip_inRange := nofun

/-- A tetragon that crosses itself between the corners of the coordinates. -/
def farCorners : Tetragon :=
  ⟨⟨coordMin, coordMin⟩, ⟨coordMax, coordMin⟩, ⟨coordMin, coordMax⟩, ⟨coordMax, coordMax⟩⟩

theorem farCorners_inRange : farCorners.InRange :=
  ⟨by decide, by decide, by decide, by decide⟩

/-- The largest boxes, the longest radius and the largest screen. -/
theorem wide_arithmetic_exact_extremes :
    AgreeOnBoxes ⟨coordMin, coordMin, sizeMax, sizeMax⟩ ⟨coordMax, coordMax, sizeMax, sizeMax⟩
        ⟨coordMin, coordMax⟩ ⟨coordMax, coordMin⟩ ∧
      AgreeOnWalk coordMax 2147483648 ∧
      AgreeOnDrawing Pixmap.sample (.solidTetragon farCorners) 3 ∧
      AgreeOnFrame Pixmap.sample.toFrame ⟨coordMin, coordMax⟩
        ⟨coordMin, coordMin, sizeMax, sizeMax⟩ ∧
      AgreeOnCopies Pixmap.sample Pixmap.sample16 ⟨coordMin, coordMax⟩ ⟨coordMax, coordMin⟩
        ⟨coordMin, coordMin⟩ ⟨coordMin, coordMin, sizeMax, sizeMax⟩ ∧
      AgreeOnDamage (Damage.new sizeMax sizeMax .default)
        [.add ⟨coordMin, coordMin, sizeMax, sizeMax⟩, .take, .resize 0 sizeMax, .flush] :=
  wide_arithmetic_exact (s := .solidTetragon farCorners) (by decide) (by decide) (by decide)
    (by decide) (by decide) (by decide) 2147483648 sample16_held sample_held
    farCorners_inRange 3 (Nat.le_refl _) (Nat.le_refl _) (by decide) (by decide)

end Scanline.Machine

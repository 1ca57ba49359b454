import Scanline.Proofs.Blit.Clipped
import Scanline.Proofs.Pixmap.Draw
import Scanline.Proofs.Pixmap.Fill
import Scanline.Proofs.Screen.Damage
import Scanline.Screen
/-! A screen and the display that it is shown on. The display only sees what a flush tells it, yet
after every flush it shows the pixmap: between flushes both differ at pending points only, or all
of the screen is to be shown. -/

namespace Scanline

/-- A screen with the pixels that its display shows. -/
structure Display where
  screen : Screen
  shadow : Point → Pixel

inductive Operation where
  | draw (s : Shape) (v : Pixel)
  | fill (v : Pixel)
  | blit (src : Pixmap) (a b q : Point)
  | blitClipped (src : Pixmap) (a b q : Point)
  | blitSized (src : Pixmap) (x y : Int) (w h : Nat) (q : Point)
  | blitSizedClipped (src : Pixmap) (x y : Int) (w h : Nat) (q : Point)
  | flush

namespace Operation

/-- The pixmap that is copied, if the operation is a copy. -/
def source? : Operation → Option Pixmap
  | blit src .. | blitClipped src .. | blitSized src .. | blitSizedClipped src .. => some src
  | draw .. | fill .. | flush => none

/-- The rectangle of a checked copy and its place lie in their pixmaps. -/
def Fits (f : Frame) : Operation → Prop
  | blit src a b q => ∀ s ∈ Window.ofCorners a b,
      s ∈ src.bounds ∧ s.ahead ⟨q.x - min a.x b.x, q.y - min a.y b.y⟩ ∈ f.bounds
  | blitSized src x y w h q => ∀ s ∈ Box.ofSize x y w h,
      s ∈ src.bounds ∧ s.ahead ⟨q.x - x, q.y - y⟩ ∈ f.bounds
  | draw .. | fill .. | blitClipped .. | blitSizedClipped .. | flush => True

end Operation

theorem Screen.result_copy (s : Screen) (f : Pixmap → Attempt (Box × Pixmap)) :
    (s.copy f).result = (f s.pixmap).result.map (record s.damage) := by
  rw [copy, Attempt.result_bind]
  cases (f s.pixmap).result with
  | error e => rfl
  | ok answer => rfl

namespace Display

/-- What the display shows after it was told to show all of a pixmap or a box of it. -/
def refresh (p : Pixmap) (shadow : Point → Pixel) : Refresh → Point → Pixel
  | .flip => fun c => if c ∈ p.bounds then p.shown c else shadow c
  | .update b => fun c => if c ∈ b ∧ c ∈ p.bounds then p.shown c else shadow c

def step (d : Display) : Operation → Except Failure Display
  | .draw s v => (d.screen.draw s v).map fun out => ⟨out.2, d.shadow⟩
  | .fill v => (d.screen.fill v).map fun out => ⟨out, d.shadow⟩
  | .blit src a b q =>
    (d.screen.blit src (.ofCorners a b) q).result.map fun out => ⟨out.2, d.shadow⟩
  | .blitClipped src a b q =>
    (d.screen.blitClipped src (.ofCorners a b) q).result.map fun out => ⟨out.2, d.shadow⟩
  | .blitSized src x y w h q =>
    (d.screen.blitSized src x y w h q).result.map fun out => ⟨out.2, d.shadow⟩
  | .blitSizedClipped src x y w h q =>
    (d.screen.blitSizedClipped src x y w h q).result.map fun out => ⟨out.2, d.shadow⟩
  | .flush =>
    let out := d.screen.flush.value
    .ok ⟨out.2, out.1.refreshes.foldl (refresh d.screen.pixmap) d.shadow⟩

def run (d : Display) (ops : List Operation) : Except Failure Display := ops.foldlM step d

/-- The display shows the pixmap, but for pending points or before all of it is shown again. -/
structure Consistent (d : Display) : Prop where
  valid : d.screen.pixmap.Valid
  known : d.screen.pixmap.format.Known
  bounds_eq : d.screen.damage.bounds = d.screen.pixmap.bounds
  pending : d.screen.damage.full = true ∨ ∀ c ∈ d.screen.pixmap.bounds,
    d.shadow c ≠ d.screen.pixmap.shown c → c ∈ d.screen.damage.pending

/-- A box and a pixmap that painting may answer: what has changed lies in the box. -/
structure Painted (p : Pixmap) (answer : Box × Pixmap) : Prop where
  frame_eq : answer.2.toFrame = p.toFrame
  valid : answer.2.Valid
  mem_box : ∀ c ∈ p.bounds, answer.2.shown c ≠ p.shown c → c ∈ answer.1

variable {d : Display}

theorem Consistent.record (h : d.Consistent) {answer : Box × Pixmap}
    (hp : Painted d.screen.pixmap answer) :
    Consistent ⟨(Screen.record d.screen.damage answer).2, d.shadow⟩ := by
  refine ⟨hp.valid, ?_, ?_, ?_⟩
  · simp only [Screen.record, hp.frame_eq]
    exact h.known
  · simp only [Screen.record, hp.frame_eq, Damage.add_bounds]
    exact h.bounds_eq
  simp only [Screen.record, hp.frame_eq, Damage.add_full]
  cases hfull : d.screen.damage.full with
  | true => exact Or.inl rfl
  | false =>
    refine Or.inr fun c hc hne => Damage.mem_add_pending (h.valid.onScreen hc) hfull ?_
    -- A pixel that differs was pending already, or it was painted just now.
    by_cases hsame : answer.2.shown c = d.screen.pixmap.shown c
    · rw [hsame] at hne
      exact Or.inl (h.pending.resolve_left (by rw [hfull]; exact Bool.false_ne_true) c hc hne)
    · exact Or.inr (hp.mem_box c hc hsame)

theorem painted_draw {p : Pixmap} (hp : p.Valid) (s : Shape) (v : Pixel) :
    ∃ answer, p.draw s v = .ok answer ∧ Painted p answer := by
  obtain ⟨q, hq, h⟩ := hp.draw s v
  refine ⟨_, hq, h.frame_eq, h.valid hp, fun c hc hne => ?_⟩
  by_contra hbox
  exact hne (h.shown_of_not_mem hp hc fun hW => hbox (hp.mem_drawn hW.1 hW.2))

theorem painted_copy {src dst : Pixmap} {W : Set Point} {origin : Point → Point}
    {answer : Box × Pixmap} (h : Transferred src dst W origin answer) (hd : dst.Valid) :
    Painted dst answer :=
  ⟨h.frame_eq, hd.congr h.frame_eq h.size_eq, fun _ hc hne => h.mem_of_shown_ne hd hc hne⟩

theorem Consistent.fill (h : d.Consistent) (v : Pixel) :
    ∃ d', d.step (.fill v) = .ok d' ∧ d'.Consistent ∧
      d'.screen.pixmap.toFrame = d.screen.pixmap.toFrame := by
  obtain ⟨q, hq, hfill⟩ := h.valid.fill v
  refine ⟨⟨⟨q, d.screen.damage.markFull⟩, d.shadow⟩, ?_, ⟨hfill.valid h.valid, ?_, ?_, Or.inl rfl⟩,
    hfill.frame_eq⟩
  · rw [step, Screen.fill, hq]
    rfl
  · rw [hfill.frame_eq]
    exact h.known
  · rw [hfill.frame_eq]
    exact h.bounds_eq

/-- After a flush the display shows every pixel of the pixmap. -/
theorem Consistent.shadow_flush (h : d.Consistent) {c : Point} (hc : c ∈ d.screen.pixmap.bounds) :
    d.screen.damage.redraw.refreshes.foldl (refresh d.screen.pixmap) d.shadow c =
      d.screen.pixmap.shown c := by
  have hon := h.valid.onScreen hc
  have hc' : c ∈ d.screen.damage.bounds := by rw [h.bounds_eq]; exact hc
  cases hr : d.screen.damage.redraw with
  | nothing =>
    obtain ⟨hfull, hpend⟩ := Damage.not_mem_of_redraw_eq_nothing hr hon hc'
    by_contra hne
    exact hpend (h.pending.resolve_left (by rw [hfull]; exact Bool.false_ne_true) c hc hne)
  | full => exact if_pos hc
  | rect b =>
    obtain ⟨hfull, hmem⟩ := Damage.mem_of_redraw_eq_rect hr hon hc'
    simp only [Redraw.refreshes, List.foldl_cons, List.foldl_nil, refresh]
    split
    · rfl
    · rename_i hout
      by_contra hne
      exact hout ⟨hmem (h.pending.resolve_left (by rw [hfull]; exact Bool.false_ne_true) c hc hne),
        hc⟩

theorem Consistent.flush (h : d.Consistent) : ∃ d', d.step .flush = .ok d' ∧ d'.Consistent ∧
    d'.screen.pixmap.toFrame = d.screen.pixmap.toFrame ∧
      ∀ c ∈ d'.screen.pixmap.bounds, d'.shadow c = d'.screen.pixmap.shown c :=
  ⟨_, rfl, ⟨h.valid, h.known, h.bounds_eq,
    Or.inr fun _ hc hne => absurd (h.shadow_flush hc) hne⟩, rfl, fun _ hc => h.shadow_flush hc⟩

theorem Consistent.copy (h : d.Consistent) {f : Pixmap → Attempt (Box × Pixmap)}
    (hf : ∃ answer, (f d.screen.pixmap).result = .ok answer ∧ Painted d.screen.pixmap answer) :
    ∃ d', ((d.screen.copy f).result.map fun out => (⟨out.2, d.shadow⟩ : Display)) = .ok d' ∧
      d'.Consistent ∧ d'.screen.pixmap.toFrame = d.screen.pixmap.toFrame := by
  obtain ⟨answer, hok, hp⟩ := hf
  exact ⟨_, by rw [Screen.result_copy, hok]; rfl, h.record hp, hp.frame_eq⟩

section Operations
variable {op : Operation} {ops : List Operation}

theorem Consistent.step (h : d.Consistent)
    (hsrc : ∀ src, op.source? = some src → src.Valid ∧ src.format.Known)
    (hfit : op.Fits d.screen.pixmap.toFrame) :
    ∃ d', d.step op = .ok d' ∧ d'.Consistent ∧
      d'.screen.pixmap.toFrame = d.screen.pixmap.toFrame := by
  cases op with
  | draw s v =>
    obtain ⟨answer, hok, hp⟩ := painted_draw h.valid s v
    refine ⟨_, ?_, h.record hp, hp.frame_eq⟩
    rw [Display.step, Screen.draw, hok]
    rfl
  | fill v => exact h.fill v
  | blit src a b q =>
    obtain ⟨hs, hk⟩ := hsrc src rfl
    obtain ⟨hx, hy⟩ := Window.ofCorners_le a b
    obtain ⟨hin, hinAt⟩ := (Window.forall_mem_iff hx hy).mp hfit
    obtain ⟨answer, hok, ht⟩ := hs.blit h.valid hk h.known hx hy hin hinAt
    exact h.copy ⟨answer, hok, painted_copy ht h.valid⟩
  | blitClipped src a b q =>
    obtain ⟨hs, hk⟩ := hsrc src rfl
    obtain ⟨answer, hok, ht⟩ := hs.blitClipped h.valid hk h.known (.ofCorners a b) q
    exact h.copy ⟨answer, hok, painted_copy ht h.valid⟩
  | blitSized src x y w h' q =>
    obtain ⟨hs, hk⟩ := hsrc src rfl
    obtain ⟨answer, hok, ht⟩ := hs.blitSized h.valid hk h.known hfit
    exact h.copy ⟨answer, hok, painted_copy ht h.valid⟩
  | blitSizedClipped src x y w h' q =>
    obtain ⟨hs, hk⟩ := hsrc src rfl
    obtain ⟨answer, hok, ht⟩ := hs.blitSizedClipped h.valid hk h.known x y w h' q
    exact h.copy ⟨answer, hok, painted_copy ht h.valid⟩
  | flush =>
    obtain ⟨d', hok, hc, hframe, -⟩ := h.flush
    exact ⟨d', hok, hc, hframe⟩

/-- The only requests that are refused are checked copies that do not fit. -/
theorem step_refused (h : ¬op.Fits d.screen.pixmap.toFrame) :
    ∃ m, d.step op = .error (.misuse m) := by
  cases op with
  | blit src a b q =>
    obtain ⟨hx, hy⟩ := Window.ofCorners_le a b
    obtain ⟨m, hm⟩ : ∃ m, d.screen.pixmap.blit src (.ofCorners a b) q = .fail (.misuse m) :=
      Pixmap.blit_refused fun hin => h ((Window.forall_mem_iff hx hy).mpr hin)
    exact ⟨m, by rw [Display.step, Screen.blit, Screen.result_copy, hm]; rfl⟩
  | blitSized src x y w h' q =>
    obtain ⟨m, hm⟩ : ∃ m, d.screen.pixmap.blitSized src x y w h' q = .fail (.misuse m) :=
      Pixmap.blitSized_refused h
    exact ⟨m, by rw [Display.step, Screen.blitSized, Screen.result_copy, hm]; rfl⟩
  | draw s v => exact absurd trivial h
  | fill v => exact absurd trivial h
  | blitClipped src a b q => exact absurd trivial h
  | blitSizedClipped src x y w h' q => exact absurd trivial h
  | flush => exact absurd trivial h

theorem Consistent.run (h : d.Consistent)
    (hsrc : ∀ op ∈ ops, ∀ src, op.source? = some src → src.Valid ∧ src.format.Known)
    (hfit : ∀ op ∈ ops, op.Fits d.screen.pixmap.toFrame) :
    ∃ d', d.run ops = .ok d' ∧ d'.Consistent ∧
      d'.screen.pixmap.toFrame = d.screen.pixmap.toFrame := by
  induction ops generalizing d with
  | nil => exact ⟨d, rfl, h, rfl⟩
  | cons op ops ih =>
    obtain ⟨d₁, h₁, hc₁, hf₁⟩ := h.step (hsrc op List.mem_cons_self) (hfit op List.mem_cons_self)
    obtain ⟨d₂, h₂, hc₂, hf₂⟩ := ih hc₁ (fun op hop => hsrc op (List.mem_cons_of_mem _ hop))
      fun op hop => by rw [hf₁]; exact hfit op (List.mem_cons_of_mem _ hop)
    refine ⟨d₂, ?_, hc₂, hf₂.trans hf₁⟩
    rw [Display.run, List.foldlM_cons, h₁]
    exact h₂

theorem Consistent.fits_of_run (h : d.Consistent)
    (hsrc : ∀ op ∈ ops, ∀ src, op.source? = some src → src.Valid ∧ src.format.Known)
    {d' : Display} (hrun : d.run ops = .ok d') :
    ∀ op ∈ ops, op.Fits d.screen.pixmap.toFrame := by
  induction ops generalizing d with
  | nil => exact fun op hop => absurd hop List.not_mem_nil
  | cons op ops ih =>
    rw [Display.run, List.foldlM_cons] at hrun
    have hop : op.Fits d.screen.pixmap.toFrame := by
      by_contra hnot
      obtain ⟨m, hm⟩ := step_refused hnot
      rw [hm] at hrun
      exact absurd hrun nofun
    obtain ⟨d₁, h₁, hc₁, hf₁⟩ := h.step (hsrc op List.mem_cons_self) hop
    rw [h₁] at hrun
    have hrest := ih hc₁ (fun op hop => hsrc op (List.mem_cons_of_mem _ hop)) hrun
    rw [hf₁] at hrest
    exact List.forall_mem_cons.mpr ⟨hop, hrest⟩

end Operations

/-- A run stops only at a checked copy that does not fit. After every flush of a run the display
shows the pixmap, if it did so at first or all of the screen was to be shown. -/
theorem shadow_eq_after_flush (hvalid : d.screen.pixmap.Valid)
    (hknown : d.screen.pixmap.format.Known)
    (hwidth : d.screen.damage.width = d.screen.pixmap.width)
    (hheight : d.screen.damage.height = d.screen.pixmap.height)
    (hstart : d.screen.damage.full = true ∨
      ∀ c ∈ d.screen.pixmap.bounds, d.screen.pixmap.get c = .ok (d.shadow c))
    {ops : List Operation}
    (hsrc : ∀ op ∈ ops, ∀ src, op.source? = some src → src.Valid ∧ src.format.Known) :
    ((∃ d', d.run ops = .ok d') ↔ ∀ op ∈ ops, op.Fits d.screen.pixmap.toFrame) ∧
    ∀ d', d.run ops = .ok d' → ∃ d'', d'.step .flush = .ok d'' ∧
      d''.screen.pixmap.toFrame = d.screen.pixmap.toFrame ∧
      ∀ c ∈ d''.screen.pixmap.bounds, d''.screen.pixmap.get c = .ok (d''.shadow c) := by
  have h : d.Consistent := by
    refine ⟨hvalid, hknown, ?_, hstart.imp_right fun hshown c hc hne => ?_⟩
    · rw [Damage.bounds, Frame.bounds, hwidth, hheight]
    · have hget := hshown c hc
      rw [hvalid.get_eq hc] at hget
      exact absurd (Except.ok.inj hget).symm hne
  refine ⟨⟨?_, ?_⟩, ?_⟩
  · rintro ⟨d', hrun⟩
    exact h.fits_of_run hsrc hrun
  · intro hfit
    obtain ⟨d', hrun, -⟩ := h.run hsrc hfit
    exact ⟨d', hrun⟩
  · intro d' hrun
    obtain ⟨d₁, hrun₁, hc₁, hf₁⟩ := h.run hsrc (h.fits_of_run hsrc hrun)
    obtain rfl : d₁ = d' := Except.ok.inj (hrun₁.symm.trans hrun)
    obtain ⟨d₂, hflush, hc₂, hf₂, hshow⟩ := hc₁.flush
    refine ⟨d₂, hflush, hf₂.trans hf₁, fun c hc => ?_⟩
    rw [hc₂.valid.get_eq hc, hshow c hc]

/-- A new screen, all of which is to be shown, on a display that shows nothing. -/
def sample : Display := ⟨⟨Pixmap.sample, .new 3 2 .default⟩, fun _ => 0⟩

def sampleRun : List Operation :=
  [.fill 1, .flush, .blitClipped Pixmap.sample16 ⟨0, 0⟩ ⟨5, 5⟩ ⟨1, 1⟩]

theorem shadow_eq_after_flush_sample :
    ∃ d' d'' : Display, sample.run sampleRun = .ok d' ∧ d'.step .flush = .ok d'' ∧
      d''.screen.pixmap.get ⟨2, 1⟩ = .ok (d''.shadow ⟨2, 1⟩) := by
  have hsrc : ∀ op ∈ sampleRun, ∀ src, op.source? = some src → src.Valid ∧ src.format.Known := by
    intro op hop src heq
    simp only [sampleRun, List.mem_cons, List.not_mem_nil, or_false] at hop
    rcases hop with rfl | rfl | rfl
    · exact absurd heq nofun
    · exact absurd heq nofun
    · rw [← Option.some.inj heq]
      exact ⟨Pixmap.sample16_valid, Format.known_of_mem_standard (by decide)⟩
  obtain ⟨hrun, hflush⟩ := shadow_eq_after_flush (d := sample) Pixmap.sample_valid
    (Format.known_of_mem_standard (by decide)) rfl rfl (Or.inl rfl) hsrc
  obtain ⟨d', hd'⟩ := hrun.mpr fun op hop => by
    simp only [sampleRun, List.mem_cons, List.not_mem_nil, or_false] at hop
    rcases hop with rfl | rfl | rfl
    all_goals exact trivial
  obtain ⟨d'', hd'', hframe, hshow⟩ := hflush d' hd'
  exact ⟨d', d'', hd', hd'', hshow ⟨2, 1⟩ (by rw [hframe]; decide)⟩

end Display

end Scanline

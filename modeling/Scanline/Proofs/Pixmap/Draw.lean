import Scanline.Proofs.Pixmap.Runs
import Scanline.Proofs.Shape.Pixels
/-! Drawing. A shape repaints its points inside the clip, each with the value as far as the depth
keeps it, and the answer is the box of the shape inside the clip. Neither the points nor the box
depend on the pixmap. -/

namespace Scanline.Pixmap

/-- Whatever the value, drawing a shape writes it to the points of `W` and changes no other bit. -/
structure Writes (p : Pixmap) (s : Shape) (W : Set Point) : Prop where
  points_eq : Run.points (s.runs p.clipRect) = W
  draw : ∀ v, ∃ q, p.draw s v = .ok (s.box.intersect p.clipRect, q) ∧
    Repainted p q W fun _ => v &&& p.format.depth.mask

section Clip
variable {p : Pixmap} (hp : p.Valid) {c : Point}
include hp

theorem Valid.bounds_onScreen : p.bounds.OnScreen := fun _ hc => hp.onScreen hc

theorem Valid.clipRect_onScreen : p.clipRect.OnScreen := by
  unfold Frame.clipRect
  split
  · exact hp.bounds_onScreen.intersect _
  · exact hp.bounds_onScreen

theorem Valid.mem_clipRect :
    c ∈ p.clipRect ↔ c ∈ p.bounds ∧ ∀ clip, p.clip = some clip → c ∈ clip := by
  unfold Frame.clipRect
  split
  · rename_i clip heq
    constructor
    · intro hc
      have h := hp.bounds_onScreen.mem_intersect.mp hc
      exact ⟨h.2, fun clip' h' => by rw [heq] at h'; exact Option.some.inj h' ▸ h.1⟩
    · rintro ⟨hb, h⟩
      exact hp.bounds_onScreen.mem_intersect.mpr ⟨h clip heq, hb⟩
  · rename_i heq
    exact ⟨fun hc => ⟨hc, fun clip h => by rw [heq] at h; exact absurd h nofun⟩, And.left⟩

theorem Valid.mem_bounds_of_mem_clipRect (hc : c ∈ p.clipRect) : c ∈ p.bounds :=
  (hp.mem_clipRect.mp hc).1

/-- Everything that is painted lies in the answer. -/
theorem Valid.mem_drawn {s : Shape} (hc : c ∈ p.clipRect) (hs : c ∈ s.pixels) :
    c ∈ s.box.intersect p.clipRect :=
  hp.clipRect_onScreen.mem_intersect.mpr
    ⟨Shape.pixels_subset_box (hp.clipRect_onScreen c hc) hs, hc⟩

theorem Valid.draw (s : Shape) (v : Pixel) :
    ∃ q, p.draw s v = .ok (s.box.intersect p.clipRect, q) ∧
      Repainted p q {c | c ∈ p.clipRect ∧ c ∈ s.pixels} (fun _ => v &&& p.format.depth.mask) := by
  have hruns : ∀ c, c ∈ Run.points (s.runs p.clipRect) ↔ c ∈ p.clipRect ∧ c ∈ s.pixels :=
    fun c => Shape.mem_points_runs hp.clipRect_onScreen
  have hin : ∀ r ∈ s.runs p.clipRect, ∀ c ∈ r, c ∈ p.bounds := fun r hr c hc =>
    hp.mem_bounds_of_mem_clipRect ((hruns c).mp ⟨r, hr, hc⟩).1
  obtain ⟨data, hdata, h⟩ := hp.writeRuns hin v
  refine ⟨⟨p.toFrame, data⟩, ?_, h.congr (fun c _ => hruns c) fun _ _ _ => rfl⟩
  rcases p with ⟨frame, before⟩
  simp only [Pixmap.draw, hdata]

theorem Valid.writes (s : Shape) : p.Writes s {c | c ∈ p.clipRect ∧ c ∈ s.pixels} :=
  ⟨Set.ext fun _ => Shape.mem_points_runs hp.clipRect_onScreen, hp.draw s⟩

/-- How the runs of a shape are found makes no difference: its points and its box are all that
shows. -/
theorem Valid.draw_congr {s s' : Shape} (hpixels : s.pixels = s'.pixels) (hbox : s.box = s'.box)
    (v : Pixel) : p.draw s v = p.draw s' v := by
  obtain ⟨q, hq, hpainted⟩ := hp.draw s v
  obtain ⟨q', hq', hpainted'⟩ := hp.draw s' v
  rw [hpixels] at hpainted
  rw [hq, hq', hbox, hpainted.unique hp hpainted']

end Clip

/-- Drawing never fails. The points of the shape inside the clip show the value, every bit that
belongs to none of them is as before, and the answer holds all of them. -/
theorem draw_exact {p : Pixmap} (hp : p.Valid) (s : Shape) (v : Pixel) :
    ∃ q, p.draw s v = .ok (s.box.intersect p.clipRect, q) ∧ q.toFrame = p.toFrame ∧
      (∀ c ∈ p.clipRect, c ∈ s.pixels → q.get c = .ok (v &&& p.format.depth.mask)) ∧
      q.data.size = p.data.size ∧
      (∀ k, (∀ c ∈ p.clipRect, c ∈ s.pixels → ¬p.Owns c k) →
        bitAt q.data k = bitAt p.data k) ∧
      ∀ c ∈ p.clipRect, c ∈ s.pixels → c ∈ s.box.intersect p.clipRect := by
  obtain ⟨q, hq, h⟩ := hp.draw s v
  refine ⟨q, hq, h.frame_eq, ?_, h.size_eq, ?_, ?_⟩
  · intro c hc hs
    have hin := hp.mem_bounds_of_mem_clipRect hc
    rw [(h.valid hp).get_eq (by rw [h.frame_eq]; exact hin), h.painted c ⟨hc, hs⟩ hin]
  · exact fun k hk => h.kept k fun c hc => hk c hc.1 hc.2
  · exact fun c hc hs => hp.mem_drawn hc hs

theorem draw_exact_sample :
    ∃ q, sample.draw (.hline 1 9 0) 7 = .ok (⟨1, 0, 1, 1⟩, q) ∧ q.get ⟨1, 0⟩ = .ok 3 ∧
      q.data.size = 5 := by
  obtain ⟨q, hq, -, hget, hsize, -⟩ := draw_exact sample_valid (.hline 1 9 0) 7
  exact ⟨q, hq, hget ⟨1, 0⟩ (by decide) (Rect.mem_solid.mpr (by decide)), hsize⟩

end Scanline.Pixmap

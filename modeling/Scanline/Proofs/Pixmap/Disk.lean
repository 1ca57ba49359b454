import Scanline.Proofs.Pixmap.Draw
import Scanline.Proofs.Shape.Disk
/-! Circles and disks in pixmaps. With one center and radius both answer the same box, the outline
is part of the disk and closes each of its rows, and both are as close to the ideal circle as
whole pixels allow. -/

namespace Scanline.Pixmap

variable {p : Pixmap} {r : Int}

theorem Valid.writes_circle (hp : p.Valid) (hr : 0 ≤ r) (c : Point) :
    p.Writes (.circle c r) {d | d ∈ p.clipRect ∧ d ∈ (Shape.circle c r).onPlane} := by
  rw [Shape.onPlane_circle hr]
  exact hp.writes (.circle c r)

theorem Valid.writes_disk (hp : p.Valid) (hr : 0 ≤ r) (c : Point) :
    p.Writes (.disk c r) {d | d ∈ p.clipRect ∧ d ∈ (Shape.disk c r).onPlane} := by
  rw [Shape.onPlane_disk hr]
  exact hp.writes (.disk c r)

/-- A disk is the rows of the walk around its center. The outline of the same radius is part of it
and holds the first and the last pixel of each row, on the plane and as far as a clip shows both. -/
theorem outline_rims_disk (hr : 0 ≤ r) (c : Point) :
    (∀ d, d ∈ (Shape.disk c r).onPlane ↔
      ∃ w, Circle.RowWalked r (d.y - c.y).natAbs w ∧ ((d.x - c.x).natAbs : Int) ≤ w) ∧
    (Shape.circle c r).onPlane ⊆ (Shape.disk c r).onPlane ∧
    (∀ y, c.y - r ≤ y → y ≤ c.y + r → ∃ first last,
      IsLeast {x | (⟨x, y⟩ : Point) ∈ (Shape.disk c r).onPlane} first ∧
      IsGreatest {x | (⟨x, y⟩ : Point) ∈ (Shape.disk c r).onPlane} last ∧
      ⟨first, y⟩ ∈ (Shape.circle c r).onPlane ∧ ⟨last, y⟩ ∈ (Shape.circle c r).onPlane) ∧
    ∀ p : Pixmap, p.Valid →
      p.Writes (.circle c r) {d | d ∈ p.clipRect ∧ d ∈ (Shape.circle c r).onPlane} ∧
      p.Writes (.disk c r) {d | d ∈ p.clipRect ∧ d ∈ (Shape.disk c r).onPlane} ∧
      Run.points ((Shape.circle c r).runs p.clipRect) ⊆
        Run.points ((Shape.disk c r).runs p.clipRect) ∧
      ∀ v v', (p.draw (.circle c r) v).map Prod.fst = (p.draw (.disk c r) v').map Prod.fst := by
  have hsubset : (Shape.circle c r).onPlane ⊆ (Shape.disk c r).onPlane := by
    rw [Shape.onPlane_circle hr, Shape.onPlane_disk hr]
    exact fun d => Circle.mem_disk_of_mem_outline
  refine ⟨?_, hsubset, ?_, ?_⟩
  · intro d
    rw [Shape.onPlane_disk hr]
    exact Circle.mem_disk_iff_rowWalked hr
  · intro y hy hy'
    rw [Shape.onPlane_circle hr, Shape.onPlane_disk hr]
    exact Circle.rowEnds_mem_outline hr (by omega)
  · intro p hp
    have hcircle := hp.writes_circle hr c
    have hdisk := hp.writes_disk hr c
    refine ⟨hcircle, hdisk, ?_, ?_⟩
    · rw [hcircle.points_eq, hdisk.points_eq]
      exact fun d hd => ⟨hd.1, hsubset hd.2⟩
    · intro v v'
      obtain ⟨q, hq, -⟩ := hcircle.draw v
      obtain ⟨q', hq', -⟩ := hdisk.draw v'
      rw [hq, hq']
      rfl

theorem outline_rims_disk_two :
    (⟨1, 1⟩ : Point) ∈ (Shape.disk ⟨-1, 0⟩ 2).onPlane ∧
    (∃ first last, IsLeast {x | (⟨x, -2⟩ : Point) ∈ (Shape.disk ⟨-1, 0⟩ 2).onPlane} first ∧
      IsGreatest {x | (⟨x, -2⟩ : Point) ∈ (Shape.disk ⟨-1, 0⟩ 2).onPlane} last ∧
      ⟨first, -2⟩ ∈ (Shape.circle ⟨-1, 0⟩ 2).onPlane ∧
      ⟨last, -2⟩ ∈ (Shape.circle ⟨-1, 0⟩ 2).onPlane) ∧
    (sample.draw (.circle ⟨-1, 0⟩ 2) 7).map Prod.fst =
      (sample.draw (.disk ⟨-1, 0⟩ 2) 6).map Prod.fst := by
  obtain ⟨hrows, -, hends, hdraws⟩ := outline_rims_disk (r := 2) (by decide) ⟨-1, 0⟩
  refine ⟨(hrows ⟨1, 1⟩).mpr ⟨2, ⟨2, by decide⟩, by decide⟩, hends (-2) (by decide) (by decide), ?_⟩
  obtain ⟨-, -, -, hbox⟩ := hdraws sample sample_valid
  exact hbox 7 6

/-- Outlines lie within half a pixel of the ideal circle, disks do not reach out farther, and a disk
leaves out no pixel of the clip that lies within the radius. -/
theorem circle_accurate (hr : 0 ≤ r) (c : Point) (hp : p.Valid) : ∃ outline disk : Set Point,
    p.Writes (.circle c r) outline ∧ p.Writes (.disk c r) disk ∧
    (∀ d ∈ outline, r * r - r ≤ Circle.distance c d ∧ Circle.distance c d ≤ r * r + r) ∧
    (∀ d ∈ disk, Circle.distance c d ≤ r * r + r) ∧
    ∀ d ∈ p.clipRect, Circle.distance c d ≤ r * r → d ∈ disk := by
  refine ⟨_, _, hp.writes (.circle c r), hp.writes (.disk c r), ?_, ?_, ?_⟩
  · rintro d ⟨-, hd⟩
    have hdisk := Circle.distance_of_mem_disk (Circle.mem_disk_of_mem_outline hd)
    exact ⟨Circle.distance_of_mem_outline hd, hdisk⟩
  · rintro d ⟨-, hd⟩
    exact Circle.distance_of_mem_disk hd
  · intro d hclip hd
    exact ⟨hclip, Circle.mem_disk_of_distance hr hd⟩

theorem circle_accurate_sample : ∃ outline disk : Set Point,
    sample.Writes (.circle ⟨-1, 0⟩ 2) outline ∧ sample.Writes (.disk ⟨-1, 0⟩ 2) disk ∧
    (∀ d ∈ outline, 2 ≤ Circle.distance ⟨-1, 0⟩ d) ∧ ⟨0, 1⟩ ∈ disk := by
  obtain ⟨outline, disk, houtline, hdisk, hnear, -, hwithin⟩ :=
    circle_accurate (r := 2) (by decide) ⟨-1, 0⟩ sample_valid
  refine ⟨outline, disk, houtline, hdisk, ?_, hwithin ⟨0, 1⟩ (by decide) (by decide)⟩
  intro d hd
  exact (hnear d hd).1

end Scanline.Pixmap

import Scanline.Draw
import Scanline.Proofs.Pixmap.Cells
import Scanline.Proofs.Shape.Runs
/-! Writing runs. A run inside the buffer is written pixel by pixel and repaints its points; a list
of such runs repaints the points of all of them. -/

namespace Scanline

namespace Pixmap

theorem Valid.writeRun {p : Pixmap} (hp : p.Valid) {v : Pixel} {n x y : Nat} (hy : y < p.height)
    (hx : x + n ≤ p.width) :
    ∃ data, p.format.depth.writeRun p.data (y * p.stride) v n x = .ok data ∧
      Repainted p ⟨p.toFrame, data⟩ {c | c.y = y ∧ (x : Int) ≤ c.x ∧ c.x < x + n}
        (fun _ => v &&& p.format.depth.mask) := by
  induction n generalizing p x with
  | zero =>
    refine ⟨p.data, rfl, .of_forall_notMem fun c hc => ?_⟩
    rw [Set.mem_ofPred_eq] at hc
    omega
  | succ n ih =>
    have hc : (⟨x, y⟩ : Point) ∈ p.bounds := Frame.mem_bounds_of_lt (by omega) hy
    obtain ⟨data, hdata, h⟩ := hp.write_data hc (v := v) (fun _ => v &&& p.format.depth.mask) rfl
    obtain ⟨data', hdata', h'⟩ := ih (h.valid hp) (x := x + 1) hy (by dsimp only; omega)
    simp only [Int.toNat_natCast] at hdata
    refine ⟨data', by simp only [Depth.writeRun, hdata]; exact hdata', ?_⟩
    refine (h.trans hp h').congr ?_ fun _ _ _ => rfl
    intro c _
    rcases c with ⟨cx, cy⟩
    simp only [Set.mem_union, Set.mem_singleton_iff, Set.mem_ofPred_eq, Point.mk.injEq]
    omega

theorem Valid.writeRun_run {p : Pixmap} (hp : p.Valid) {r : Run} (h : ∀ c ∈ r, c ∈ p.bounds)
    (v : Pixel) :
    ∃ data, p.format.depth.writeRun p.data (r.y.toNat * p.stride) v (r.last + 1 - r.first).toNat
        r.first.toNat = .ok data ∧
      Repainted p ⟨p.toFrame, data⟩ {c | c ∈ r} (fun _ => v &&& p.format.depth.mask) := by
  by_cases hr : r.first ≤ r.last
  · have hfirst := Frame.mem_bounds.mp (h ⟨r.first, r.y⟩ (Run.mem_iff.mpr (by dsimp only; omega)))
    have hlast := Frame.mem_bounds.mp (h ⟨r.last, r.y⟩ (Run.mem_iff.mpr (by dsimp only; omega)))
    dsimp only at hfirst hlast
    obtain ⟨data, hdata, hrep⟩ := hp.writeRun (v := v) (n := (r.last + 1 - r.first).toNat)
      (x := r.first.toNat) (y := r.y.toNat) (by omega) (by omega)
    refine ⟨data, hdata, hrep.congr ?_ fun _ _ _ => rfl⟩
    intro c _
    simp only [Set.mem_ofPred_eq, Run.mem_iff]
    omega
  · refine ⟨p.data, by rw [show (r.last + 1 - r.first).toNat = 0 by omega]; rfl, ?_⟩
    refine .of_forall_notMem fun c hc => ?_
    rw [Set.mem_ofPred_eq, Run.mem_iff] at hc
    omega

theorem Valid.writeRuns {p : Pixmap} (hp : p.Valid) {rs : List Run}
    (h : ∀ r ∈ rs, ∀ c ∈ r, c ∈ p.bounds) (v : Pixel) :
    ∃ data, Scanline.writeRuns p.format.depth p.stride v rs p.data = .ok data ∧
      Repainted p ⟨p.toFrame, data⟩ (Run.points rs) (fun _ => v &&& p.format.depth.mask) := by
  induction rs generalizing p with
  | nil => exact ⟨p.data, rfl, .of_forall_notMem fun _ => Run.not_mem_points_nil⟩
  | cons r rs ih =>
    obtain ⟨data, hdata, h₁⟩ := hp.writeRun_run (h r List.mem_cons_self) v
    obtain ⟨data', hdata', h₂⟩ := ih (h₁.valid hp)
      fun r' hr' => h r' (List.mem_cons_of_mem _ hr')
    refine ⟨data', by simp only [Scanline.writeRuns, hdata]; exact hdata', ?_⟩
    refine (h₁.trans hp h₂).congr ?_ fun _ _ _ => rfl
    exact fun c _ => Run.mem_points_cons.symm

end Pixmap

end Scanline

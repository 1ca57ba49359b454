import Scanline.Proofs.Fuzz.Reading
import Scanline.Proofs.Pixmap.Inspect
import Scanline.Proofs.Pixmap.Reachable
/-! The pixmaps of trials. Every specimen that can be read can be made, its bytes are exactly its
rows, and its pixels are zero until something is painted. -/

namespace Scanline

theorem Frame.strideFor_of_le (format : Format) {width height align : Nat}
    (halign : align = 1 ∨ align = 2 ∨ align = 4 ∨ align = 8) (hw : width ≤ Fuzz.maxSide)
    (hh : height ≤ Fuzz.maxSide) :
    ∃ stride, Frame.strideFor format width height align = .ok stride ∧ stride ≤ 103 := by
  have hrow : format.depth.rowBytes width ≤ 96 := by
    have hbits := Nat.mul_le_mul hw format.depth.bits_le
    simp only [Fuzz.maxSide] at hbits
    simp only [Depth.rowBytes]
    omega
  have hpow : align = 1 <<< align.log2 := by
    rcases halign with rfl | rfl | rfl | rfl
    all_goals decide
  have hle := Nat.div_mul_le_self (format.depth.rowBytes width + (align - 1)) align
  simp only [Fuzz.maxSide] at hw hh
  rw [Frame.strideFor, if_neg (by rw [← hpow]; exact fun h => h rfl),
    if_neg (by rw [coordMax]; omega), if_pos (by rw [addressSpace]; omega)]
  exact ⟨_, rfl, by omega⟩

namespace Fuzz.Specimen

/-- A pixmap as trials make it. -/
structure Blank (p : Pixmap) : Prop where
  valid : p.Valid
  known : p.format.Known
  zero : ∀ k, bitAt p.data k = false

theorem Sound.exists_pixmap {s : Specimen} (h : s.Sound) : ∃ p, s.pixmap = .ok p ∧ Blank p := by
  obtain ⟨htag, hw, hw', hh, hh', halign⟩ := h
  have hformat : Registry.standard.get? s.tag = some Registry.standard.formats[s.tag] :=
    Array.getElem?_eq_getElem htag
  generalize Registry.standard.formats[s.tag] = format at hformat
  obtain ⟨stride, hstride, hle⟩ := Frame.strideFor_of_le format halign hw' hh'
  have hsize : stride * s.height ≤ 103 * 24 := Nat.mul_le_mul hle hh'
  have hbuffer : Frame.bufferSize? s.width s.height stride = .ok (stride * s.height) := by
    rw [Frame.bufferSize?, if_pos (by rw [addressSpace]; omega)]
  have hzeros : zeros (stride * s.height) = .ok ⟨Array.replicate (stride * s.height) 0⟩ := by
    rw [zeros, if_pos (by rw [maxBuffer]; omega)]
  have hok : s.pixmap = .ok ⟨⟨s.width, s.height, stride, s.align, format, none, .upright⟩,
      ⟨Array.replicate (stride * s.height) 0⟩⟩ := by
    rw [pixmap, Pixmap.ofRegistry, Registry.format, hformat]
    simp only [Pixmap.create, ofConfig, Except.mapError, hstride, hbuffer, hzeros, ok_bind]
    rfl
  exact ⟨_, hok, Pixmap.valid_of_ofRegistry hok, ⟨_, .standard, _, hformat⟩,
    fun k => bitAt_zeros hzeros⟩

variable {p : Pixmap} (h : Blank p)
include h

theorem Blank.shown_eq {c : Point} (hc : c ∈ p.bounds) : p.shown c = 0 := by
  have hload := Depth.load_eq_of_bitAt (v := 0) (h.valid.fits hc) fun o _ => by
    rw [h.zero, UInt32.toNat_zero, Nat.zero_testBit]
  exact hload.trans (UInt32.zero_and)

theorem Blank.setClip (clip : Option Box) : Blank (p.setClip clip) := by
  obtain ⟨⟨hw, hh, hr, hlt, hle⟩, hknown, hzero⟩ := h
  exact ⟨⟨hw, hh, hr, hlt, hle⟩, hknown, hzero⟩

end Fuzz.Specimen

namespace Pixmap
variable {p : Pixmap} (hp : p.Valid) {f : Nat → Nat → Pixel}
include hp

theorem Valid.exists_putRaw {x y : Nat} (hx : x < p.width) (hy : y < p.height) (v : Pixel) :
    ∃ q, p.putRaw x y v = .ok q ∧ Rewritten p q := by
  obtain ⟨q, hq, h⟩ := hp.putRaw (Frame.mem_bounds_of_lt hx hy) (v := v)
    (fun _ => v &&& p.format.depth.mask) rfl
  exact ⟨q, hq, h.frame_eq, h.size_eq⟩

theorem Valid.exists_generateRow {y n x : Nat} (hy : y < p.height) (hx : x + n ≤ p.width) :
    ∃ q, generateRow f y n x p = .ok q ∧ Rewritten p q := by
  induction n generalizing p x with
  | zero => exact ⟨p, rfl, .refl p⟩
  | succ n ih =>
    obtain ⟨q, hq, h⟩ := hp.exists_putRaw (show x < p.width by omega) hy (f x y)
    obtain ⟨r, hr, h'⟩ := ih (h.valid hp) (x := x + 1) (by rw [h.frame_eq]; exact hy)
      (by rw [h.frame_eq]; omega)
    exact ⟨r, by rw [generateRow, hq]; exact hr, h.trans h'⟩

theorem Valid.exists_generateRows {w n y : Nat} (hw : w ≤ p.width) (hy : y + n ≤ p.height) :
    ∃ q, generateRows f w n y p = .ok q ∧ Rewritten p q := by
  induction n generalizing p y with
  | zero => exact ⟨p, rfl, .refl p⟩
  | succ n ih =>
    obtain ⟨q, hq, h⟩ := hp.exists_generateRow (f := f) (show y < p.height by omega)
      (show 0 + w ≤ p.width by omega)
    obtain ⟨r, hr, h'⟩ := ih (h.valid hp) (y := y + 1) (by rw [h.frame_eq]; exact hw)
      (by rw [h.frame_eq]; omega)
    exact ⟨r, by rw [generateRows, hq]; exact hr, h.trans h'⟩

theorem Valid.exists_generate (f : Nat → Nat → Pixel) :
    ∃ q, p.generate f = .ok q ∧ Rewritten p q :=
  hp.exists_generateRows (Nat.le_refl p.width) (Nat.le_of_eq (Nat.zero_add p.height))

end Pixmap

end Scanline

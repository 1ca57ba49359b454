import Scanline.Blit.Oriented
import Scanline.Proofs.Blit.Copy
/-! What writing and copying leave of a pixmap. Whatever the arguments, and whatever becomes of the
bytes, a pixmap that is answered has the frame of the one it was made from and as many bytes. -/

namespace Scanline

section Bytes
variable {data data' : ByteArray}

theorem size_of_writeWord {n i : Nat} {v : Pixel} (h : writeWord data n i v = .ok data') :
    data'.size = data.size := by
  induction n generalizing data i v with
  | zero => rw [Except.ok.inj h]
  | succ n ih =>
    rw [writeWord] at h
    split at h
    · rw [ih h, size_set]
    · cases h

theorem Depth.size_of_write {d : Depth} {row x : Nat} {v : Pixel}
    (h : d.write data row x v = .ok data') : data'.size = data.size := by
  rw [Depth.write] at h
  split at h
  · dsimp only at h
    split at h
    · rw [← Except.ok.inj h, size_set]
    · cases h
  · exact size_of_writeWord h

theorem Depth.size_of_writeRun {d : Depth} {row n x : Nat} {v : Pixel}
    (h : d.writeRun data row v n x = .ok data') : data'.size = data.size := by
  induction n generalizing data x with
  | zero => rw [Except.ok.inj h]
  | succ n ih =>
    rw [Depth.writeRun] at h
    split at h
    · rename_i hdata
      rw [ih h, size_of_write hdata]
    · cases h

theorem size_of_overwrite {i : Nat} {bytes : ByteArray} (h : overwrite data i bytes = .ok data') :
    data'.size = data.size := by
  rw [overwrite] at h
  split at h
  · rename_i hfit
    rw [← Except.ok.inj h, size_copySlice (by omega) hfit]
  · cases h

theorem size_of_copyByteRows {src : ByteArray} {srcStride dstStride len n s d : Nat}
    (h : copyByteRows src srcStride dstStride len n s d data = .ok data') :
    data'.size = data.size := by
  induction n generalizing data s d with
  | zero => rw [Except.ok.inj h]
  | succ n ih =>
    rw [copyByteRows] at h
    split at h
    · rename_i hfit
      rw [ih h, size_copySlice hfit.1 hfit.2]
    · cases h

end Bytes

namespace Pixmap

/-- The second pixmap is the first with other bytes. -/
structure Rewritten (p q : Pixmap) : Prop where
  frame_eq : q.toFrame = p.toFrame
  size_eq : q.data.size = p.data.size

namespace Rewritten
variable {p q r : Pixmap}

theorem refl (p : Pixmap) : Rewritten p p := ⟨rfl, rfl⟩

theorem trans (h : Rewritten p q) (h' : Rewritten q r) : Rewritten p r :=
  ⟨h'.frame_eq.trans h.frame_eq, h'.size_eq.trans h.size_eq⟩

theorem valid (h : Rewritten p q) (hp : p.Valid) : q.Valid := hp.congr h.frame_eq h.size_eq

end Rewritten

theorem rewritten_of_write {p q : Pixmap} {x y : Nat} {v : Pixel} (h : p.write x y v = .ok q) :
    Rewritten p q := by
  rcases p with ⟨frame, data⟩
  rw [write] at h
  split at h
  · rename_i data' hdata
    rw [← Except.ok.inj h]
    exact ⟨rfl, Depth.size_of_write hdata⟩
  · cases h

theorem rewritten_of_putRaw {p q : Pixmap} {x y : Nat} {v : Pixel}
    (h : p.putRaw x y v = .ok q) : Rewritten p q := by
  obtain ⟨_, -, h⟩ := exists_of_bind_eq_ok h
  exact rewritten_of_write h

theorem rewritten_of_setBytes {p q : Pixmap} {i : Nat} {bytes : ByteArray}
    (h : p.setBytes i bytes = .ok q) : Rewritten p q := by
  obtain ⟨data, hdata, rfl⟩ := exists_of_map_eq_ok h
  exact ⟨rfl, size_of_overwrite hdata⟩

theorem rewritten_of_setRow {p q : Pixmap} {y : Nat} {bytes : ByteArray}
    (h : p.setRow y bytes = .ok q) : Rewritten p q := by
  rw [setRow] at h
  split at h
  · exact rewritten_of_setBytes h
  · cases h

section Copies
variable {src dst q : Pixmap} {answer : Box × Pixmap}

theorem rewritten_of_copyPixels {recode : Pixel → Except Failure Pixel} {sy dy n sx dx : Nat}
    (h : copyPixels src recode sy dy n sx dx dst = .ok q) : Rewritten dst q := by
  induction n generalizing dst sx dx with
  | zero => exact Except.ok.inj h ▸ .refl dst
  | succ n ih =>
    rw [copyPixels] at h
    split at h
    · cases h
    split at h
    · cases h
    split at h
    · cases h
    · rename_i hwrite
      exact (rewritten_of_write hwrite).trans (ih h)

theorem rewritten_of_copyPixelRows {recode : Pixel → Except Failure Pixel} {w sx dx n sy dy : Nat}
    (h : copyPixelRows src recode w sx dx n sy dy dst = .ok q) : Rewritten dst q := by
  induction n generalizing dst sy dy with
  | zero => exact Except.ok.inj h ▸ .refl dst
  | succ n ih =>
    rw [copyPixelRows] at h
    split at h
    · cases h
    · rename_i hrow
      exact (rewritten_of_copyPixels hrow).trans (ih h)

theorem rewritten_of_copyBlock {b : Block} (h : dst.copyBlock src b = .ok q) :
    Rewritten dst q := by
  rw [copyBlock] at h
  dsimp only at h
  split at h
  · split at h
    · rename_i hdata
      rw [← Except.ok.inj h]
      exact ⟨rfl, size_of_copyByteRows hdata⟩
    · cases h
  · exact rewritten_of_copyPixelRows h

theorem rewritten_of_copyNoted {b : Block} (h : (dst.copyNoted src b).result = .ok answer) :
    Rewritten dst answer.2 := by
  simp only [copyNoted, Attempt.result_bind, Attempt.result_liftM] at h
  obtain ⟨_, -, h⟩ := exists_of_bind_eq_ok h
  obtain ⟨q, hq, h⟩ := exists_of_bind_eq_ok h
  rw [← Except.ok.inj h]
  exact rewritten_of_copyBlock hq

variable {r : Window} {p : Point}

theorem rewritten_of_blit (h : (dst.blit src r p).result = .ok answer) :
    Rewritten dst answer.2 := by
  rw [blit] at h
  split at h
  · cases h
  · exact rewritten_of_copyNoted h

theorem rewritten_of_blitClipped (h : (dst.blitClipped src r p).result = .ok answer) :
    Rewritten dst answer.2 := by
  rw [blitClipped] at h
  split at h
  · exact Except.ok.inj h ▸ .refl dst
  · exact rewritten_of_copyNoted h

theorem rewritten_of_onWindow {r : Option Window} {copy : Pixmap → Window → Attempt (Box × Pixmap)}
    (hcopy : ∀ r, (copy dst r).result = .ok answer → Rewritten dst answer.2)
    (h : (dst.onWindow r copy).result = .ok answer) : Rewritten dst answer.2 := by
  cases r with
  | none => exact Except.ok.inj h ▸ .refl dst
  | some r => exact hcopy r h

theorem rewritten_of_blitSized {x y : Int} {w h : Nat}
    (hok : (dst.blitSized src x y w h p).result = .ok answer) : Rewritten dst answer.2 :=
  rewritten_of_onWindow (fun _ => rewritten_of_blit) hok

theorem rewritten_of_blitSizedClipped {x y : Int} {w h : Nat}
    (hok : (dst.blitSizedClipped src x y w h p).result = .ok answer) : Rewritten dst answer.2 :=
  rewritten_of_onWindow (fun _ => rewritten_of_blitClipped) hok

theorem rewritten_of_copyOrientedPixels {b : Block} {j n i : Nat}
    (h : copyOrientedPixels src b j n i dst = .ok q) : Rewritten dst q := by
  induction n generalizing dst i with
  | zero => exact Except.ok.inj h ▸ .refl dst
  | succ n ih =>
    rw [copyOrientedPixels] at h
    obtain ⟨_, -, h⟩ := exists_of_bind_eq_ok h
    obtain ⟨_, -, h⟩ := exists_of_bind_eq_ok h
    obtain ⟨_, hput, h⟩ := exists_of_bind_eq_ok h
    exact (rewritten_of_putRaw hput).trans (ih h)

theorem rewritten_of_copyOrientedRows {b : Block} {n j : Nat}
    (h : copyOrientedRows src b n j dst = .ok q) : Rewritten dst q := by
  induction n generalizing dst j with
  | zero => exact Except.ok.inj h ▸ .refl dst
  | succ n ih =>
    rw [copyOrientedRows] at h
    obtain ⟨_, hrow, h⟩ := exists_of_bind_eq_ok h
    exact (rewritten_of_copyOrientedPixels hrow).trans (ih h)

theorem rewritten_of_copyOriented {b : Block} (h : (dst.copyOriented src b).result = .ok answer) :
    Rewritten dst answer.2 := by
  rw [copyOriented] at h
  split at h
  · rw [Attempt.result_bind] at h
    obtain ⟨copied, hcopied, h⟩ := exists_of_bind_eq_ok h
    have hsame : Rewritten dst copied.2 := rewritten_of_blitSized hcopied
    rw [← Except.ok.inj h]
    exact hsame
  · rw [Attempt.result_bind, Attempt.result_liftM] at h
    obtain ⟨q, hq, h⟩ := exists_of_bind_eq_ok h
    rw [← Except.ok.inj h]
    exact rewritten_of_copyOrientedRows hq

theorem rewritten_of_blitOriented (h : (dst.blitOriented src r p).result = .ok answer) :
    Rewritten dst answer.2 := by
  rw [blitOriented] at h
  split at h
  · cases h
  · exact rewritten_of_copyOriented h

theorem rewritten_of_blitOrientedClipped
    (h : (dst.blitOrientedClipped src r p).result = .ok answer) : Rewritten dst answer.2 := by
  rw [blitOrientedClipped] at h
  split at h
  · exact Except.ok.inj h ▸ .refl dst
  · exact rewritten_of_copyOriented h

end Copies

end Pixmap

end Scanline

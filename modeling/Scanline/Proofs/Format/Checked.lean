import Scanline.Proofs.Format.Packing
/-! Word arithmetic that answers only with the exact result. A sum, product or shifted word that
does not fit, a difference below zero, a division by zero, a shift by 32 or more and a byte that
loses bits are faults. Written with it, the operations on the channels of a sound format still
answer, and the same: none of their steps leaves the words. -/

namespace Scanline

namespace Checked
variable {a b c : UInt32} {n : Nat}

/-- The word of a number, if there is one. -/
def word (n : Nat) : Except Failure UInt32 :=
  if n < 2 ^ 32 then .ok n.toUInt32 else .error (.fault .overflow)

def byte (a : UInt32) : Except Failure UInt8 :=
  if a.toNat < 2 ^ 8 then .ok a.toUInt8 else .error (.fault .overflow)

def add (a b : UInt32) : Except Failure UInt32 := word (a.toNat + b.toNat)

def sub (a b : UInt32) : Except Failure UInt32 :=
  if b ≤ a then .ok (a - b) else .error (.fault .overflow)

def mul (a b : UInt32) : Except Failure UInt32 := word (a.toNat * b.toNat)

def div (a b : UInt32) : Except Failure UInt32 :=
  if b = 0 then .error (.fault .zeroDivision) else .ok (a / b)

def shl (a : UInt32) (n : Nat) : Except Failure UInt32 :=
  if n < 32 then word (a.toNat <<< n) else .error (.fault .overflow)

def shr (a : UInt32) (n : Nat) : Except Failure UInt32 :=
  if n < 32 then .ok (a >>> n.toUInt32) else .error (.fault .overflow)

theorem word_eq_ok : word n = .ok a ↔ a.toNat = n := by
  unfold word
  have hlt := a.toNat_lt
  split
  · rename_i hn
    rw [Except.ok.injEq, ← UInt32.toNat_inj, Nat.toUInt32, UInt32.toNat_ofNat_of_lt' hn, eq_comm]
  · refine iff_of_false (by simp) ?_
    rintro rfl
    contradiction

theorem add_eq_ok : add a b = .ok c ↔ c.toNat = a.toNat + b.toNat := word_eq_ok

theorem mul_eq_ok : mul a b = .ok c ↔ c.toNat = a.toNat * b.toNat := word_eq_ok

theorem shl_eq_ok (hn : n < 32) : shl a n = .ok c ↔ c.toNat = a.toNat <<< n := by
  rw [shl, if_pos hn, word_eq_ok]

theorem shr_eq_ok (hn : n < 32) : shr a n = .ok (a >>> n.toUInt32) := if_pos hn

theorem sub_eq_ok (h : b ≤ a) : sub a b = .ok (a - b) := if_pos h

theorem div_eq_ok (h : b ≠ 0) : div a b = .ok (a / b) := if_neg h

theorem byte_eq_ok {v : UInt8} : byte a = .ok v ↔ v.toNat = a.toNat := by
  unfold byte
  have hlt := v.toNat_lt
  split
  · rename_i ha
    rw [Except.ok.injEq, ← UInt8.toNat_inj, UInt32.toNat_toUInt8, Nat.mod_eq_of_lt ha, eq_comm]
  · refine iff_of_false (by simp) ?_
    omega

end Checked

namespace Channel
variable {c : Channel} {d : Depth}

def checkedLowBits (n : Nat) : Except Failure Pixel :=
  if n ≥ 32 then .ok 0xffffffff else Checked.shl 1 n >>= fun above => Checked.sub above 1

def checkedGet8 (c : Channel) (p : Pixel) : Except Failure UInt8 := do
  let level := (← Checked.shr p c.offset) &&& (← checkedLowBits c.size)
  if c.size ≥ 8 then Checked.byte (← Checked.shr level (c.size - 8))
  else Checked.byte (← Checked.div (← Checked.mul level 255) (← checkedLowBits c.size))

def checkedStored (c : Channel) (v : UInt8) : Except Failure Pixel :=
  if c.size ≥ 8 then Checked.shl v.toUInt32 (c.size - 8)
  else do
    let scaled ← Checked.mul v.toUInt32 (← checkedLowBits c.size)
    Checked.div (← Checked.add scaled 127) 255

def checkedPut8 (c : Channel) (v : UInt8) : Except Failure Pixel := do
  Checked.shl ((← c.checkedStored v) &&& (← checkedLowBits c.size)) c.offset

theorem checkedLowBits_eq (n : Nat) : checkedLowBits n = .ok (lowBits n) := by
  unfold checkedLowBits lowBits
  split
  · rfl
  · rename_i hn
    have hlt : 2 ^ n < 2 ^ 32 := Nat.pow_lt_pow_right (by decide) (by omega)
    have hshift : ((1 : Pixel) <<< n.toUInt32).toNat = 1 <<< n := by
      rw [toNat_shiftLeft_of_lt _ (by omega), UInt32.toNat_one, Nat.one_shiftLeft,
        Nat.mod_eq_of_lt hlt]
    rw [(Checked.shl_eq_ok (by omega)).mpr hshift, ok_bind]
    apply Checked.sub_eq_ok
    rw [UInt32.le_iff_toNat_le, hshift, Nat.one_shiftLeft]
    exact Nat.one_le_two_pow

theorem checkedLowBits_size (c : Channel) : checkedLowBits c.size = .ok c.full :=
  checkedLowBits_eq c.size

theorem Fits.checkedGet8_eq (h : c.Fits d) (p : Pixel) : c.checkedGet8 p = .ok (c.read p) := by
  have hsize := h.size_le
  unfold checkedGet8
  rw [Checked.shr_eq_ok h.offset_lt, ok_bind, checkedLowBits_size, ok_bind]
  change (if c.size ≥ 8 then Checked.shr (c.level p) (c.size - 8) >>= _
    else Checked.mul (c.level p) 255 >>= _) = _
  split
  · rename_i hn
    rw [Checked.shr_eq_ok (by omega), ok_bind, Checked.byte_eq_ok, h.toNat_read,
      h.toNat_level_shift hn]
  · rename_i hn
    have hmul := h.toNat_level_mul (Nat.not_le.mp hn) p
    rw [Checked.mul_eq_ok.mpr hmul, ok_bind, ok_bind, Checked.div_eq_ok (full_ne_zero h.pos),
      ok_bind, Checked.byte_eq_ok, h.toNat_read, h.toNat_level_div (Nat.not_le.mp hn)]

theorem Fits.checkedStored_eq (h : c.Fits d) (v : UInt8) : c.checkedStored v =
    .ok (if c.size ≥ 8 then v.toUInt32 <<< (c.size - 8).toUInt32
      else (v.toUInt32 * c.full + 127) / 255) := by
  have hsize := h.size_le
  unfold checkedStored
  split
  · rename_i hn
    rw [Checked.shl_eq_ok (by omega), h.toNat_byte_shift hn, Level.ofByte_of_ge hn,
      UInt8.toNat_toUInt32, Nat.shiftLeft_eq]
  · rename_i hn
    have hmul : (v.toUInt32 * c.full).toNat = v.toUInt32.toNat * c.full.toNat := by
      rw [h.toNat_byte_mul (Nat.not_le.mp hn), h.toNat_full, UInt8.toNat_toUInt32]
    have hadd := h.toNat_byte_mul_add (Nat.not_le.mp hn) v
    rw [checkedLowBits_size, ok_bind, Checked.mul_eq_ok.mpr hmul, ok_bind,
      Checked.add_eq_ok.mpr hadd, ok_bind, Checked.div_eq_ok (by decide)]

theorem Fits.checkedPut8_eq (h : c.Fits d) (v : UInt8) : c.checkedPut8 v = .ok (c.put8 v) := by
  unfold checkedPut8
  rw [h.checkedStored_eq, ok_bind, checkedLowBits_size, ok_bind, Checked.shl_eq_ok h.offset_lt,
    h.toNat_put8, UInt32.toNat_and, h.toNat_stored, h.toNat_full, Nat.and_two_pow_sub_one_eq_mod,
    Nat.mod_eq_of_lt (Level.ofByte_lt h.pos v.toNat_lt)]

end Channel

namespace Rgba

def checkedGray (color : Rgba) : Except Failure UInt8 := do
  let sum ← Checked.add (← Checked.add color.r.toUInt32 color.g.toUInt32) color.b.toUInt32
  Checked.byte (← Checked.div sum 3)

def checkedPart (color : Rgba) (k : ChannelKind) : Except Failure UInt8 :=
  if k = .value then color.checkedGray else .ok (color.part k)

theorem checkedGray_eq (color : Rgba) : color.checkedGray = .ok (Format.gray color) := by
  have hr := color.r.toNat_lt
  have hg := color.g.toNat_lt
  have hb := color.b.toNat_lt
  have htwo : (color.r.toUInt32 + color.g.toUInt32).toNat = color.r.toNat + color.g.toNat := by
    rw [UInt32.toNat_add, UInt8.toNat_toUInt32, UInt8.toNat_toUInt32, Nat.mod_eq_of_lt (by omega)]
  have hsum : (color.r.toUInt32 + color.g.toUInt32 + color.b.toUInt32).toNat =
      color.r.toNat + color.g.toNat + color.b.toNat := by
    rw [UInt32.toNat_add, htwo, UInt8.toNat_toUInt32, Nat.mod_eq_of_lt (by omega)]
  unfold checkedGray
  rw [Checked.add_eq_ok.mpr (by rw [htwo, UInt8.toNat_toUInt32, UInt8.toNat_toUInt32]), ok_bind,
    Checked.add_eq_ok.mpr (by rw [hsum, htwo, UInt8.toNat_toUInt32]), ok_bind,
    Checked.div_eq_ok (by decide), ok_bind, Checked.byte_eq_ok, Format.gray, UInt32.toNat_toUInt8,
    UInt32.toNat_div, hsum]
  change (_ / 3) % 2 ^ 8 = _ / 3
  omega

theorem checkedPart_eq (color : Rgba) (k : ChannelKind) :
    color.checkedPart k = .ok (color.part k) := by
  unfold checkedPart
  split
  · rename_i hk
    rw [color.checkedGray_eq, hk, part]
  · rfl

end Rgba

namespace Format
variable {f : Format}

def checkedUnpack (f : Format) (p : Pixel) : Except Failure Rgba :=
  f.channels.foldlM (fun color c =>
    if c.kind = .pad then .ok color else (c.checkedGet8 p).map (color.withPart c.kind))
    ⟨0, 0, 0, 255⟩

def checkedPack (f : Format) (color : Rgba) : Except Failure Pixel :=
  f.channels.foldlM (fun p c =>
    if c.kind = .pad then .ok p
    else (color.checkedPart c.kind >>= c.checkedPut8).map (p ||| ·)) 0

theorem Sound.checkedUnpack_eq (hf : f.Sound) (p : Pixel) : f.checkedUnpack p = f.unpack p := by
  rw [hf.unpack_eq]
  apply foldlM_eq_ok
  intro c hc color
  by_cases hpad : c.kind = .pad
  · rw [if_pos hpad, hpad, Rgba.withPart]
  · rw [if_neg hpad, (hf.fits hc).checkedGet8_eq]
    rfl

theorem Sound.checkedPack_eq (hf : f.Sound) (color : Rgba) :
    f.checkedPack color = .ok (f.pack color) := by
  apply foldlM_eq_ok
  intro c hc p
  rw [c.packChannel_eq]
  by_cases hpad : c.kind = .pad
  · rw [if_pos hpad, if_pos hpad, UInt32.or_zero]
  · rw [if_neg hpad, if_neg hpad, color.checkedPart_eq, ok_bind, (hf.fits hc).checkedPut8_eq]
    rfl

end Format

end Scanline

import Mathlib.Order.Bounds.Basic
import Scanline.Proofs.Pixmap.Reachable
/-! Asking for pixmaps. Rows get the least stride that is a multiple of the alignment and has room for
their pixels. A size whose bytes have no addresses is refused and changes nothing. Every other size is
granted with all pixels zero, but for one gap: bytes may have addresses and still be more than one
buffer can have, and such a size is a fault. -/

namespace Scanline

namespace Frame
variable {format : Format} {width height align stride : Nat}

/-- The multiples of the alignment with room for a packed row. -/
def strides (format : Format) (width align : Nat) : Set Nat :=
  {s | align ∣ s ∧ format.depth.rowBytes width ≤ s}

/-- The sides are coordinates, and every byte of the rows has an address. -/
structure Addressed (format : Format) (width height align stride : Nat) : Prop where
  isPowerOfTwo : align.isPowerOfTwo
  width_le : (width : Int) ≤ coordMax
  height_le : (height : Int) ≤ coordMax
  isLeast : IsLeast (strides format width align) stride
  stride_lt : stride < addressSpace
  size_lt : stride * height < addressSpace

theorem isPowerOfTwo_iff : align.isPowerOfTwo ↔ align = 1 <<< align.log2 := by
  rw [Nat.one_shiftLeft]
  constructor
  · rintro ⟨k, rfl⟩
    rw [Nat.log2_two_pow]
  · exact fun h => ⟨align.log2, h⟩

theorem isLeast_strides (format : Format) (width : Nat) (h : 0 < align) :
    IsLeast (strides format width align)
      ((format.depth.rowBytes width + (align - 1)) / align * align) := by
  have hdiv := Nat.div_add_mod' (format.depth.rowBytes width + (align - 1)) align
  have hmod := Nat.mod_lt (format.depth.rowBytes width + (align - 1)) h
  refine ⟨⟨Nat.dvd_mul_left _ _, by omega⟩, ?_⟩
  rintro s ⟨⟨k, rfl⟩, hroom⟩
  -- A multiple below the rounded one would be a whole alignment below it.
  rw [Nat.mul_comm align k] at hroom ⊢
  refine Nat.mul_le_mul_right align (Nat.le_of_lt_succ (Nat.div_lt_of_lt_mul ?_))
  rw [Nat.mul_succ, Nat.mul_comm align k]
  omega

theorem Addressed.stride_unique {stride' : Nat} (h : Addressed format width height align stride)
    (h' : Addressed format width height align stride') : stride = stride' :=
  h.isLeast.unique h'.isLeast

theorem strideFor_of_not_isPowerOfTwo (h : ¬align.isPowerOfTwo) :
    strideFor format width height align = .error (.invalidStrideAlign align) := by
  rw [strideFor, if_pos (mt isPowerOfTwo_iff.mpr h)]

theorem strideFor_of_isPowerOfTwo (format : Format) (width height : Nat) (h : align.isPowerOfTwo) :
    (∃ stride, strideFor format width height align = .ok stride ∧
      (width : Int) ≤ coordMax ∧ (height : Int) ≤ coordMax ∧
        IsLeast (strides format width align) stride ∧ stride < addressSpace) ∨
    strideFor format width height align = .error (.dimensionsTooLarge width height) ∧
      ∀ stride, ¬Addressed format width height align stride := by
  have hpos : 0 < align := Nat.pos_of_isPowerOfTwo h
  have hleast := isLeast_strides format width hpos
  rw [strideFor, if_neg (not_not.mpr (isPowerOfTwo_iff.mp h))]
  split
  · rename_i hsides
    refine .inr ⟨rfl, fun stride ha => ?_⟩
    have hw := ha.width_le
    have hh := ha.height_le
    omega
  rename_i hsides
  split
  · rename_i hlt
    exact .inl ⟨_, rfl, by omega, by omega, hleast, hlt⟩
  · rename_i hlt
    refine .inr ⟨rfl, fun stride ha => hlt ?_⟩
    rw [hleast.unique ha.isLeast]
    exact ha.stride_lt

end Frame

namespace Pixmap

/-- What asking for a pixmap comes to, where `make` builds it from its format, its stride and its data.
The format may have been looked up before. -/
inductive Granted (found : Except ConfigError Format) (width height align : Nat)
    (make : Format → Nat → ByteArray → Pixmap) : Except Failure Pixmap → Prop
  | unknown {e : ConfigError} : found = .error e →
      Granted found width height align make (.error (.config e))
  | misaligned {format : Format} : found = .ok format → ¬align.isPowerOfTwo →
      Granted found width height align make (.error (.config (.invalidStrideAlign align)))
  | tooLarge {format : Format} : found = .ok format → align.isPowerOfTwo →
      (∀ stride, ¬Frame.Addressed format width height align stride) →
      Granted found width height align make (.error (.config (.dimensionsTooLarge width height)))
  | made {format : Format} {stride : Nat} {data : ByteArray} : found = .ok format →
      Frame.Addressed format width height align stride → stride * height ≤ maxBuffer →
      data.size = stride * height → (∀ k, bitAt data k = false) →
      Granted found width height align make (.ok (make format stride data))
  /-- The bytes have addresses, and no buffer has that many. -/
  | unheld {format : Format} {stride : Nat} : found = .ok format →
      Frame.Addressed format width height align stride → maxBuffer < stride * height →
      Granted found width height align make (.error (.fault .noMemory))

section Granted
variable {format : Format} {width height align : Nat} {make : Format → Nat → ByteArray → Pixmap}

theorem exists_zeros {n : Nat} (h : n ≤ maxBuffer) :
    ∃ data, zeros n = .ok data ∧ data.size = n ∧ ∀ k, bitAt data k = false := by
  have hdata : zeros n = .ok ⟨Array.replicate n 0⟩ := if_pos h
  exact ⟨_, hdata, size_of_zeros hdata, fun _ => bitAt_zeros hdata⟩

/-- The steps that every way of asking for a pixmap goes through. -/
theorem granted_of_format (format : Format) (width height align : Nat)
    (make : Format → Nat → ByteArray → Pixmap) :
    Granted (.ok format) width height align make
      (ofConfig (Frame.strideFor format width height align) >>= fun stride =>
        ofConfig (Frame.bufferSize? width height stride) >>= fun size =>
          zeros size >>= fun data => .ok (make format stride data)) := by
  by_cases hpow : align.isPowerOfTwo
  · rcases Frame.strideFor_of_isPowerOfTwo format width height hpow with
      ⟨stride, hstride, hw, hh, hleast, hlt⟩ | ⟨hrefused, hnone⟩
    · rw [hstride, ofConfig, Except.mapError, ok_bind, Frame.bufferSize?]
      by_cases hsize : stride * height < addressSpace
      · have haddr : Frame.Addressed format width height align stride :=
          ⟨hpow, hw, hh, hleast, hlt, hsize⟩
        rw [if_pos hsize, ofConfig, Except.mapError, ok_bind]
        by_cases hheld : stride * height ≤ maxBuffer
        · obtain ⟨data, hdata, hlen, hzero⟩ := exists_zeros hheld
          rw [hdata, ok_bind]
          exact .made rfl haddr hheld hlen hzero
        · rw [zeros, if_neg hheld]
          exact .unheld rfl haddr (Nat.lt_of_not_le hheld)
      · rw [if_neg hsize]
        refine .tooLarge rfl hpow fun stride' ha => hsize ?_
        rw [hleast.unique ha.isLeast]
        exact ha.size_lt
    · rw [hrefused]
      exact .tooLarge rfl hpow hnone
  · rw [Frame.strideFor_of_not_isPowerOfTwo hpow]
    exact .misaligned rfl hpow

theorem Granted.of_found {found : Except ConfigError Format} {r : Format → Except Failure Pixmap}
    (h : ∀ format, Granted (.ok format) width height align make (r format)) :
    Granted found width height align make (ofConfig found >>= r) := by
  cases found with
  | error e => exact .unknown rfl
  | ok format => exact h format

/-- Memory is missing in the gap between addresses and buffers, and nowhere else. -/
theorem Granted.eq_noMemory_iff {r : Except Failure Pixmap}
    (h : Granted (.ok format) width height align make r) :
    r = .error (.fault .noMemory) ↔
      ∃ stride, Frame.Addressed format width height align stride ∧
        maxBuffer < stride * height := by
  cases h with
  | unknown hfound => exact absurd hfound nofun
  | misaligned _ hpow =>
    exact iff_of_false nofun fun ⟨_, haddr, _⟩ => hpow haddr.isPowerOfTwo
  | tooLarge hfound _ hnone =>
    obtain rfl := Except.ok.inj hfound
    exact iff_of_false nofun fun ⟨stride, haddr, _⟩ => hnone stride haddr
  | made hfound haddr hheld _ _ =>
    obtain rfl := Except.ok.inj hfound
    refine iff_of_false nofun fun ⟨stride, haddr', hgap⟩ => ?_
    rw [haddr'.stride_unique haddr] at hgap
    exact absurd hheld (Nat.not_le_of_lt hgap)
  | unheld hfound haddr hgap =>
    obtain rfl := Except.ok.inj hfound
    exact iff_of_true rfl ⟨_, haddr, hgap⟩

end Granted

theorem granted_create (format : Format) (width height align : Nat) (o : Orientation) :
    Granted (.ok format) width height align
      (fun format stride data => ⟨⟨width, height, stride, align, format, none, o⟩, data⟩)
      (create format width height align o) :=
  granted_of_format format width height align _

theorem result_resize (p : Pixmap) (width height : Nat) : (p.resize width height).result =
    ofConfig (Frame.strideFor p.format width height p.align) >>= fun stride =>
      ofConfig (Frame.bufferSize? width height stride) >>= fun size =>
        zeros size >>= fun data => .ok { p with width, height, stride, data } := by
  simp only [resize, Attempt.result_bind, Attempt.result_liftM, Attempt.result_pure]
  rfl

/-- However a pixmap is asked for, it is granted or refused with an error of the configuration, unless its
bytes have addresses and are more than a buffer can have. A pixmap that could not be resized stays as
it is. -/
theorem construction_exact (r : Registry) (p : Pixmap) (format : Format)
    (width height align tag : Nat) (o : Orientation) :
    Granted (.ok format) width height align
      (fun format stride data => ⟨⟨width, height, stride, align, format, none, o⟩, data⟩)
      (create format width height align o) ∧
    (create format width height align o = .error (.fault .noMemory) ↔
      ∃ stride, Frame.Addressed format width height align stride ∧
        maxBuffer < stride * height) ∧
    Granted (r.format tag) width height align
      (fun format stride data => ⟨⟨width, height, stride, align, format, none, o⟩, data⟩)
      (ofRegistry r width height tag align o) ∧
    Granted (Registry.standard.format tag) width height 1
      (fun format stride data => ⟨⟨width, height, stride, 1, format, none, .upright⟩, data⟩)
      (ofStandard width height tag) ∧
    Granted (.ok p.format) width height p.align
      (fun _ stride data => { p with width, height, stride, data })
      (p.resize width height).result ∧
    ∀ e, (p.resize width height).result = .error e → p.edited (.resize width height) = p := by
  have hcreate := granted_create format width height align o
  refine ⟨hcreate, hcreate.eq_noMemory_iff, .of_found fun f => granted_create f width height align o,
    .of_found fun f => granted_create f width height 1 .upright, ?_, ?_⟩
  · rw [result_resize]
    exact granted_of_format p.format width height p.align _
  · intro e he
    exact edited_resize_of_error he

/-- One byte in a row of half of all addresses, and a side that is no coordinate. -/
theorem construction_exact_sample :
    create Format.g8 1 1 (2 ^ 63) .upright = .error (.fault .noMemory) ∧
      sample.edited (.resize 2147483648 1) = sample := by
  have haddr : Frame.Addressed Format.g8 1 1 (2 ^ 63) (2 ^ 63) :=
    ⟨⟨63, rfl⟩, by decide, by decide, Frame.isLeast_strides Format.g8 1 (by decide), by decide,
      by decide⟩
  obtain ⟨-, hfault, -, -, -, hresize⟩ := construction_exact .standard sample Format.g8 1 1 (2 ^ 63)
    Format.g8.tag .upright
  obtain ⟨-, -, -, -, -, hside⟩ := construction_exact .standard sample Format.g8 2147483648 1 1
    Format.g8.tag .upright
  exact ⟨hfault.mpr ⟨2 ^ 63, haddr, by decide⟩, hside _ rfl⟩

/-- The largest sides and the widest standard format: every byte has an address, and no buffer has that
many. -/
theorem ofStandard_unheld :
    ofStandard 2147483647 2147483647 Format.rgba8888.tag = .error (.fault .noMemory) ∧
      ¬8589934588 * 2147483647 ≤ maxBuffer := by
  have haddr : Frame.Addressed Format.rgba8888 2147483647 2147483647 1 8589934588 :=
    ⟨⟨0, rfl⟩, by decide, by decide, Frame.isLeast_strides Format.rgba8888 2147483647 Nat.one_pos,
      by decide, by decide⟩
  have hgap : ¬8589934588 * 2147483647 ≤ maxBuffer := by decide
  have hfound : ∀ width height, ofStandard width height Format.rgba8888.tag =
      create Format.rgba8888 width height 1 .upright := fun _ _ => rfl
  rw [hfound]
  exact ⟨(granted_create Format.rgba8888 2147483647 2147483647 1 .upright).eq_noMemory_iff.mpr
    ⟨8589934588, haddr, Nat.lt_of_not_le hgap⟩, hgap⟩

end Pixmap

end Scanline

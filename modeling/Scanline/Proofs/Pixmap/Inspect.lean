import Scanline.Inspect
import Scanline.Proofs.Pixmap.Fill
import Scanline.Proofs.Pixmap.Rewritten
/-! Looking at a pixmap as a whole: cell by cell, and at the padding between rows. No pixel owns a
bit of the padding, so whatever changes pixels only leaves the padding as it was, and it can be
marked to show that. -/

namespace Scanline

section Walks
variable {α β ε : Type} {l : List α}

theorem findSomeM?_eq_none {f : α → Except ε (Option β)} (h : ∀ a ∈ l, f a = .ok none) :
    l.findSomeM? f = .ok none := by
  induction l with
  | nil => rfl
  | cons a l ih =>
    rw [List.findSomeM?, h a List.mem_cons_self]
    exact ih fun a' ha' => h a' (List.mem_cons_of_mem a ha')

theorem allM_eq_true {f : α → Except ε Bool} (h : ∀ a ∈ l, f a = .ok true) :
    l.allM f = .ok true := by
  induction l with
  | nil => rfl
  | cons a l ih =>
    rw [List.allM, h a List.mem_cons_self]
    exact ih fun a' ha' => h a' (List.mem_cons_of_mem a ha')

theorem filterAuxM_eq {f : α → Except ε Bool} {p : α → Bool} (h : ∀ a ∈ l, f a = .ok (p a))
    (acc : List α) : l.filterAuxM f acc = .ok ((l.filter p).reverse ++ acc) := by
  induction l generalizing acc with
  | nil => rfl
  | cons a l ih =>
    have htail := ih fun a' ha' => h a' (List.mem_cons_of_mem a ha')
    rw [List.filterAuxM, h a List.mem_cons_self, List.filter_cons]
    cases p a with
    | true =>
      refine (htail (a :: acc)).trans ?_
      rw [if_pos rfl, List.reverse_cons, List.append_assoc]
      rfl
    | false => exact htail acc

theorem filterM_eq_filter {f : α → Except ε Bool} {p : α → Bool} (h : ∀ a ∈ l, f a = .ok (p a)) :
    l.filterM f = .ok (l.filter p) := by
  rw [List.filterM, filterAuxM_eq h, List.append_nil]
  exact congrArg Except.ok (List.reverse_reverse _)

end Walks

section Bytes
variable {data bytes : ByteArray} {b : UInt8}

theorem exists_overwrite {i : Nat} (h : i + bytes.size ≤ data.size) :
    ∃ data', overwrite data i bytes = .ok data' ∧ data'.size = data.size ∧
      ∀ j, byteAt data' j =
        if i ≤ j ∧ j < i + bytes.size then byteAt bytes (j - i) else byteAt data j := by
  have hsrc : 0 + bytes.size ≤ bytes.size := by omega
  refine ⟨_, by rw [overwrite, if_pos h], size_copySlice hsrc h, ?_⟩
  intro j
  rw [byteAt_copySlice hsrc h, Nat.zero_add]

theorem size_replicate (n : Nat) : (⟨Array.replicate n b⟩ : ByteArray).size = n := by
  rw [← ByteArray.size_data, Array.size_replicate]

theorem byteAt_replicate {n i : Nat} (h : i < n) : byteAt ⟨Array.replicate n b⟩ i = b := by
  rw [byteAt_of_lt (by rw [size_replicate]; exact h), ByteArray.getElem_eq_getElem_data]
  exact Array.getElem_replicate _

theorem mem_toListLoop {i : Nat} {r : List UInt8} (h : b ∈ ByteArray.toList.loop data i r) :
    b ∈ r ∨ ∃ j < data.size, byteAt data j = b := by
  fun_induction ByteArray.toList.loop data i r with
  | case1 i r hi ih =>
    rcases ih h with hmem | hbyte
    · rcases List.mem_cons.mp hmem with rfl | hr
      · refine .inr ⟨i, hi, ?_⟩
        rw [byteAt_of_lt hi]
        exact (getElem!_pos data.data i hi).symm
      · exact .inl hr
    · exact .inr hbyte
  | case2 i r hi => exact .inl (List.mem_reverse.mp h)

theorem exists_of_mem_toList (h : b ∈ data.toList) : ∃ i < data.size, byteAt data i = b :=
  (mem_toListLoop h).resolve_left List.not_mem_nil

end Bytes

namespace Frame
variable {f : Frame}

theorem mem_bounds_of_mem_cells {c : Nat × Nat} (hc : c ∈ f.cells) :
    (⟨c.1, c.2⟩ : Point) ∈ f.bounds :=
  mem_bounds_of_lt (mem_cells.mp hc).1 (mem_cells.mp hc).2

theorem exists_cell {c : Point} (hc : c ∈ f.bounds) : ∃ d ∈ f.cells, (⟨d.1, d.2⟩ : Point) = c := by
  obtain ⟨hx, hx', hy, hy'⟩ := mem_bounds.mp hc
  refine ⟨(c.x.toNat, c.y.toNat), mem_cells.mpr (by dsimp only; omega), ?_⟩
  rw [Int.toNat_of_nonneg hx, Int.toNat_of_nonneg hy]

end Frame

namespace Pixmap

/-- The padding of every row consists of one byte. -/
def Padded (p : Pixmap) (v : UInt8) : Prop :=
  ∀ y < p.height, ∀ j, p.rowBytes ≤ j → j < p.stride → byteAt p.data (p.rowStart y + j) = v

variable {p q : Pixmap} (hp : p.Valid) {v : UInt8}
include hp

theorem Valid.getRaw_cell {c : Nat × Nat} (hc : c ∈ p.cells) :
    p.getRaw c.1 c.2 = .ok (p.shown ⟨c.1, c.2⟩) :=
  hp.getRaw_eq (Frame.mem_bounds_of_mem_cells hc)

theorem Valid.lit_eq : p.lit = .ok (p.cells.filter fun c => p.shown ⟨c.1, c.2⟩ != 0) := by
  apply filterM_eq_filter
  intro c hc
  rw [hp.getRaw_cell hc]
  rfl

/-- One row of padding is set, and a byte that was marked before stays so. -/
theorem Valid.exists_setPadding {y : Nat} (hy : y < p.height) (v : UInt8) :
    ∃ q, p.setBytes (p.rowStart y + p.rowBytes)
        ⟨Array.replicate (p.stride - p.rowBytes) v⟩ = .ok q ∧ Rewritten p q ∧
      (∀ j, p.rowBytes ≤ j → j < p.stride → byteAt q.data (p.rowStart y + j) = v) ∧
      ∀ i, byteAt p.data i = v → byteAt q.data i = v := by
  have hend := hp.row_end_le hy
  have hrow := hp.rowBytes_le
  have hlen := size_replicate (b := v) (p.stride - p.rowBytes)
  have hfit : p.rowStart y + p.rowBytes +
      (⟨Array.replicate (p.stride - p.rowBytes) v⟩ : ByteArray).size ≤ p.data.size := by omega
  obtain ⟨data, hdata, hsize, hbyte⟩ := exists_overwrite hfit
  refine ⟨{ p with data }, by rw [setBytes, hdata]; rfl, ⟨rfl, hsize⟩, ?_, ?_⟩
  · intro j hj hj'
    rw [hbyte, if_pos (by omega), byteAt_replicate (by omega)]
  · intro i hi
    rw [hbyte]
    split
    · exact byteAt_replicate (by omega)
    · exact hi

/-- Marking goes row by row, and no row takes the mark from another one. -/
theorem Valid.exists_fillRows (l : List Nat) (hl : ∀ y ∈ l, y < p.height) (h : Rewritten p q) :
    ∃ q', l.foldlM (fun q y => q.setBytes (p.rowStart y + p.rowBytes)
        ⟨Array.replicate (p.stride - p.rowBytes) v⟩) q = .ok q' ∧ Rewritten p q' ∧
      (∀ y ∈ l, ∀ j, p.rowBytes ≤ j → j < p.stride → byteAt q'.data (p.rowStart y + j) = v) ∧
      ∀ i, byteAt q.data i = v → byteAt q'.data i = v := by
  induction l generalizing q with
  | nil => exact ⟨q, rfl, h, fun y hy => absurd hy List.not_mem_nil, fun _ hi => hi⟩
  | cons y l ih =>
    have hset := (h.valid hp).exists_setPadding (y := y)
      (by rw [h.frame_eq]; exact hl y List.mem_cons_self) v
    simp only [rowStart, h.frame_eq] at hset
    obtain ⟨r, hr, hrewritten, hmarked, hkept⟩ := hset
    obtain ⟨q', hq', hrewritten', hmarked', hkept'⟩ :=
      ih (fun y' hy' => hl y' (List.mem_cons_of_mem y hy')) (h.trans hrewritten)
    refine ⟨q', ?_, hrewritten', ?_, fun i hi => hkept' i (hkept i hi)⟩
    · rw [List.foldlM_cons, rowStart, hr]
      exact hq'
    · intro y' hy' j hj hj'
      rcases List.mem_cons.mp hy' with rfl | hmem
      · exact hkept' _ (hmarked j hj hj')
      · exact hmarked' y' hmem j hj hj'

theorem Valid.exists_fillPadding (v : UInt8) :
    ∃ q, p.fillPadding v = .ok q ∧ Rewritten p q ∧ q.Padded v := by
  obtain ⟨q, hq, h, hmarked, -⟩ := hp.exists_fillRows (v := v) (List.range p.height)
    (fun y hy => List.mem_range.mp hy) (.refl p)
  refine ⟨q, hq, h, ?_⟩
  intro y hy j hj hj'
  simp only [rowStart, h.frame_eq] at hy hj hj' ⊢
  exact hmarked y (List.mem_range.mpr hy) j hj hj'

theorem Valid.paddingIs_of_padded (h : p.Padded v) : p.paddingIs v = .ok true := by
  apply allM_eq_true
  intro y hy
  have hend := hp.row_end_le (List.mem_range.mp hy)
  have hrow := hp.rowBytes_le
  have hfit : p.rowStart y + p.rowBytes + (p.stride - p.rowBytes) ≤ p.data.size := by omega
  obtain ⟨bytes, hbytes, hsize, hbyte⟩ := exists_slice hfit
  rw [padding, hbytes, ok_bind]
  refine congrArg Except.ok (List.all_eq_true.mpr ?_)
  intro b hb
  obtain ⟨i, hi, rfl⟩ := exists_of_mem_toList hb
  rw [beq_iff_eq, hbyte i (by omega), Nat.add_assoc]
  exact h y (List.mem_range.mp hy) _ (by omega) (by omega)

theorem Valid.not_owns_padding {y j k : Nat} (hj : p.rowBytes ≤ j) (hj' : j < p.stride)
    (hk : k / 8 = p.rowStart y + j) (c : Point) : ¬p.Owns c k := by
  rintro ⟨hc, hle, hlt⟩
  obtain ⟨hx, hx', -, -⟩ := Frame.mem_bounds.mp hc
  have hpixel := Frame.pixel_le_rowBytes (f := p.toFrame) (x := c.x.toNat) (by omega)
  have hrow := hp.rowBytes_le
  simp only [Frame.firstBit, Depth.firstBit] at hle hlt
  rw [rowStart] at hk
  have heq : y = c.y.toNat :=
    eq_of_overlap (n := p.stride) (k := k / 8) (by omega) (by omega) (by omega) (by omega)
  rw [← heq] at hle hlt
  omega

/-- Padding outlasts every change to pixels only. -/
theorem Valid.padded_of_kept (h : p.Padded v) (hframe : q.toFrame = p.toFrame)
    (hkept : ∀ k, (∀ c, ¬p.Owns c k) → bitAt q.data k = bitAt p.data k) : q.Padded v := by
  intro y hy j hj hj'
  simp only [rowStart, hframe] at hy hj hj' ⊢
  rw [← h y hy j hj hj']
  apply byteAt_eq_of_bitAt
  intro o ho
  exact hkept _ (hp.not_owns_padding (y := y) hj hj' (by rw [rowStart]; omega))

end Pixmap

end Scanline

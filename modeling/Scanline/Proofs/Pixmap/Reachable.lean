import Scanline.Proofs.Blit.InPlace
import Scanline.Proofs.Pixmap.Draw
import Scanline.Proofs.Pixmap.Fill
/-! The pixmaps that can come about: they are made from a format and a size or from bytes, and then
changed by any requests, of which some may fail on the way. A pixmap that is made or resized has
room for its rows, and no other request changes its size, its stride or the length of its data. What
a request refuses leaves the pixmap as it was, because the checks come before the writes. -/

namespace Scanline

section Sizes
variable {format : Format} {width height align stride size : Nat}

theorem Frame.strideFor_eq_ok (h : strideFor format width height align = .ok stride) :
    (width : Int) ≤ coordMax ∧ (height : Int) ≤ coordMax ∧
      format.depth.rowBytes width ≤ stride := by
  rw [strideFor] at h
  split at h
  · exact absurd h nofun
  rename_i halign
  split at h
  · exact absurd h nofun
  rename_i hsides
  split at h
  · have hpos : 0 < align := by
      rw [Decidable.not_not.mp halign, Nat.one_shiftLeft]
      exact Nat.two_pow_pos _
    have hdiv := Nat.div_add_mod' (format.depth.rowBytes width + (align - 1)) align
    have hmod := Nat.mod_lt (format.depth.rowBytes width + (align - 1)) hpos
    rw [← Except.ok.inj h]
    omega
  · exact absurd h nofun

theorem Frame.bufferSize?_eq_ok (h : bufferSize? width height stride = .ok size) :
    size = stride * height ∧ stride * height < addressSpace := by
  rw [bufferSize?] at h
  split at h
  · exact ⟨(Except.ok.inj h).symm, ‹_›⟩
  · exact absurd h nofun

theorem size_of_zeros {n : Nat} {data : ByteArray} (h : zeros n = .ok data) : data.size = n := by
  rw [zeros] at h
  split at h
  · rw [← Except.ok.inj h]
    exact Array.size_replicate
  · exact absurd h nofun

theorem bitAt_zeros {n k : Nat} {data : ByteArray} (h : zeros n = .ok data) :
    bitAt data k = false := by
  rw [zeros] at h
  split at h
  · have hbyte : byteAt data (k / 8) = 0 := by
      rw [← Except.ok.inj h, byteAt]
      split
      · exact Array.getElem_replicate _
      · rfl
    rw [bitAt, hbyte]
    exact Nat.zero_testBit _
  · cases h

theorem ofConfig_eq_ok {α : Type} {r : Except ConfigError α} {a : α} (h : ofConfig r = .ok a) :
    r = .ok a := by
  cases r with
  | error e => exact absurd h nofun
  | ok b => rw [Except.ok.inj h]

end Sizes

/-- The requests that change a pixmap. -/
inductive Edit where
  | resize (width height : Nat)
  | setClip (clip : Option Box)
  | setOrientation (o : Orientation)
  | setBytes (i : Nat) (bytes : ByteArray)
  | setRow (y : Nat) (bytes : ByteArray)
  | write (x y : Nat) (v : Pixel)
  | putRaw (x y : Nat) (v : Pixel)
  | put (q : Point) (v : Pixel)
  | fill (v : Pixel)
  | draw (s : Shape) (v : Pixel)
  | drawOriented (s : Shape) (v : Pixel)
  | blit (src : Pixmap) (r : Window) (q : Point)
  | blitClipped (src : Pixmap) (r : Window) (q : Point)
  | blitSized (src : Pixmap) (x y : Int) (w h : Nat) (q : Point)
  | blitSizedClipped (src : Pixmap) (x y : Int) (w h : Nat) (q : Point)
  | blitOriented (src : Pixmap) (r : Window) (q : Point)
  | blitOrientedClipped (src : Pixmap) (r : Window) (q : Point)

namespace Pixmap

def edit (p : Pixmap) : Edit → Except Failure Pixmap
  | .resize width height => (p.resize width height).result
  | .setClip clip => .ok (p.setClip clip)
  | .setOrientation o => .ok (p.setOrientation o)
  | .setBytes i bytes => p.setBytes i bytes
  | .setRow y bytes => p.setRow y bytes
  | .write x y v => p.write x y v
  | .putRaw x y v => p.putRaw x y v
  | .put q v => p.put q v
  | .fill v => p.fill v
  | .draw s v => (p.draw s v).map Prod.snd
  | .drawOriented s v => (p.drawOriented s v).map Prod.snd
  | .blit src r q => (p.blit src r q).result.map Prod.snd
  | .blitClipped src r q => (p.blitClipped src r q).result.map Prod.snd
  | .blitSized src x y w h q => (p.blitSized src x y w h q).result.map Prod.snd
  | .blitSizedClipped src x y w h q => (p.blitSizedClipped src x y w h q).result.map Prod.snd
  | .blitOriented src r q => (p.blitOriented src r q).result.map Prod.snd
  | .blitOrientedClipped src r q => (p.blitOrientedClipped src r q).result.map Prod.snd

/-- The pixmap that its owner has after a request, which may have failed on the way. -/
def edited (p : Pixmap) : Edit → Pixmap
  | .resize width height => (InPlace.resize width height).left p
  | .setClip clip => p.setClip clip
  | .setOrientation o => p.setOrientation o
  | .setBytes i bytes => (InPlace.change (·.setBytes i bytes)).left p
  | .setRow y bytes => (InPlace.change (·.setRow y bytes)).left p
  | .write x y v => (InPlace.change (·.write x y v)).left p
  | .putRaw x y v => (InPlace.putRaw x y v).left p
  | .put q v => (InPlace.draw (.point q) v).left p
  | .fill v => (InPlace.fill v).left p
  | .draw s v => (InPlace.draw s v).left p
  | .drawOriented s v => (InPlace.drawOriented s v).left p
  | .blit src r q => (InPlace.blit src r q).left p
  | .blitClipped src r q => (InPlace.blitClipped src r q).left p
  | .blitSized src x y w h q => (InPlace.blitSized src x y w h q).left p
  | .blitSizedClipped src x y w h q => (InPlace.blitSizedClipped src x y w h q).left p
  | .blitOriented src r q => (InPlace.blitOriented src r q).left p
  | .blitOrientedClipped src r q => (InPlace.blitOrientedClipped src r q).left p

/-- The pixmaps that come about. Copies of a pixmap are that pixmap. -/
inductive Reachable : Pixmap → Prop
  | create {format : Format} {width height align : Nat} {o : Orientation} {p : Pixmap} :
      create format width height align o = .ok p → Reachable p
  | ofRegistry {r : Registry} {width height tag align : Nat} {o : Orientation} {p : Pixmap} :
      ofRegistry r width height tag align o = .ok p → Reachable p
  | ofStandard {width height tag : Nat} {p : Pixmap} :
      ofStandard width height tag = .ok p → Reachable p
  | new {width height tag : Nat} {p : Pixmap} : new width height tag = .ok p → Reachable p
  | ofData {width height stride : Nat} {format : Format} {data : ByteArray} {p : Pixmap} :
      ofData width height stride format data = .ok p → Reachable p
  | edited {p : Pixmap} (e : Edit) : Reachable p → Reachable (p.edited e)

theorem valid_of_create {format : Format} {width height align : Nat} {o : Orientation} {p : Pixmap}
    (h : create format width height align o = .ok p) : p.Valid := by
  obtain ⟨stride, hstride, h⟩ := exists_of_bind_eq_ok h
  obtain ⟨hw, hh, hrow⟩ := Frame.strideFor_eq_ok (ofConfig_eq_ok hstride)
  obtain ⟨size, hsize, h⟩ := exists_of_bind_eq_ok h
  obtain ⟨rfl, hlt⟩ := Frame.bufferSize?_eq_ok (ofConfig_eq_ok hsize)
  obtain ⟨data, hdata, h⟩ := exists_of_bind_eq_ok h
  rw [← Except.ok.inj h]
  exact ⟨hw, hh, hrow, hlt, Nat.le_of_eq (size_of_zeros hdata).symm⟩

theorem valid_of_ofRegistry {r : Registry} {width height tag align : Nat} {o : Orientation}
    {p : Pixmap} (h : ofRegistry r width height tag align o = .ok p) : p.Valid := by
  obtain ⟨format, -, h⟩ := exists_of_bind_eq_ok h
  exact valid_of_create h

theorem ofStandard_of_new {width height tag : Nat} {p : Pixmap}
    (h : new width height tag = .ok p) : ofStandard width height tag = .ok p := by
  rw [new] at h
  split at h
  · exact absurd h nofun
  · exact h

theorem valid_of_ofData {width height stride : Nat} {format : Format} {data : ByteArray}
    {p : Pixmap} (h : ofData width height stride format data = .ok p) : p.Valid := by
  obtain ⟨least, hleast, h⟩ := exists_of_bind_eq_ok h
  obtain ⟨hw, hh, hrow⟩ := Frame.strideFor_eq_ok hleast
  split at h
  · exact absurd h nofun
  rename_i hstride
  obtain ⟨required, hrequired, h⟩ := exists_of_bind_eq_ok h
  obtain ⟨rfl, hlt⟩ := Frame.bufferSize?_eq_ok hrequired
  split at h
  · exact absurd h nofun
  rename_i hsize
  rw [← Except.ok.inj h]
  exact ⟨hw, hh, Nat.le_trans hrow (Nat.le_of_not_lt hstride), hlt, Nat.le_of_not_lt hsize⟩

/-- A resized pixmap is valid even if the one before was not. -/
theorem valid_of_resize {p q : Pixmap} {width height : Nat}
    (h : (p.resize width height).result = .ok q) : q.Valid := by
  simp only [resize, Attempt.result_bind, Attempt.result_liftM] at h
  obtain ⟨stride, hstride, h⟩ := exists_of_bind_eq_ok h
  obtain ⟨hw, hh, hrow⟩ := Frame.strideFor_eq_ok (ofConfig_eq_ok hstride)
  obtain ⟨size, hsize, h⟩ := exists_of_bind_eq_ok h
  obtain ⟨rfl, hlt⟩ := Frame.bufferSize?_eq_ok (ofConfig_eq_ok hsize)
  obtain ⟨_, -, h⟩ := exists_of_bind_eq_ok h
  obtain ⟨data, hdata, h⟩ := exists_of_bind_eq_ok h
  rw [← Except.ok.inj h]
  exact ⟨hw, hh, hrow, hlt, Nat.le_of_eq (size_of_zeros hdata).symm⟩

theorem Valid.of_draw {p : Pixmap} (hp : p.Valid) {s : Shape} {v : Pixel} {answer : Box × Pixmap}
    (h : p.draw s v = .ok answer) : answer.2.Valid := by
  obtain ⟨q, hq, hpainted⟩ := hp.draw s v
  rw [← Except.ok.inj (hq.symm.trans h)]
  exact hpainted.valid hp

theorem Valid.edit {p q : Pixmap} (hp : p.Valid) {e : Edit} (h : p.edit e = .ok q) : q.Valid := by
  cases e with
  | resize width height => exact valid_of_resize h
  | setClip clip =>
    rw [← Except.ok.inj h]
    exact ⟨hp.width_le, hp.height_le, hp.rowBytes_le, hp.size_lt, hp.size_le⟩
  | setOrientation o =>
    rw [← Except.ok.inj h]
    exact ⟨hp.width_le, hp.height_le, hp.rowBytes_le, hp.size_lt, hp.size_le⟩
  | setBytes i bytes => exact (rewritten_of_setBytes h).valid hp
  | setRow y bytes => exact (rewritten_of_setRow h).valid hp
  | write x y v => exact (rewritten_of_write h).valid hp
  | putRaw x y v => exact (rewritten_of_putRaw h).valid hp
  | put c v =>
    obtain ⟨answer, hok, rfl⟩ := exists_of_map_eq_ok h
    exact hp.of_draw hok
  | fill v =>
    obtain ⟨filled, hok, hfilled⟩ := hp.fill v
    rw [← Except.ok.inj (hok.symm.trans h)]
    exact hfilled.valid hp
  | draw s v =>
    obtain ⟨answer, hok, rfl⟩ := exists_of_map_eq_ok h
    exact hp.of_draw hok
  | drawOriented s v =>
    obtain ⟨answer, hok, rfl⟩ := exists_of_map_eq_ok h
    exact hp.of_draw hok
  | blit src r c =>
    obtain ⟨answer, hok, rfl⟩ := exists_of_map_eq_ok h
    exact (rewritten_of_blit hok).valid hp
  | blitClipped src r c =>
    obtain ⟨answer, hok, rfl⟩ := exists_of_map_eq_ok h
    exact (rewritten_of_blitClipped hok).valid hp
  | blitSized src x y w h' c =>
    obtain ⟨answer, hok, rfl⟩ := exists_of_map_eq_ok h
    exact (rewritten_of_blitSized hok).valid hp
  | blitSizedClipped src x y w h' c =>
    obtain ⟨answer, hok, rfl⟩ := exists_of_map_eq_ok h
    exact (rewritten_of_blitSizedClipped hok).valid hp
  | blitOriented src r c =>
    obtain ⟨answer, hok, rfl⟩ := exists_of_map_eq_ok h
    exact (rewritten_of_blitOriented hok).valid hp
  | blitOrientedClipped src r c =>
    obtain ⟨answer, hok, rfl⟩ := exists_of_map_eq_ok h
    exact (rewritten_of_blitOrientedClipped hok).valid hp

/-- A request leaves the pixmap that it answers. If it fails, then at most bytes have changed. -/
theorem edit_eq_ok_or_rewritten (p : Pixmap) (e : Edit) :
    p.edit e = .ok (p.edited e) ∨ (∃ f, p.edit e = .error f) ∧ p.Rewritten (p.edited e) := by
  cases e with
  | resize width height => exact (InPlace.makes_resize p width height).left
  | setClip clip => exact .inl rfl
  | setOrientation o => exact .inl rfl
  | setBytes i bytes => exact (InPlace.makes_change (·.setBytes i bytes) p).left
  | setRow y bytes => exact (InPlace.makes_change (·.setRow y bytes) p).left
  | write x y v => exact (InPlace.makes_change (·.write x y v) p).left
  | putRaw x y v => exact (InPlace.makes_putRaw p x y v).left
  | put c v => exact (InPlace.does_draw p (.point c) v).left
  | fill v => exact (InPlace.makes_fill p v).left
  | draw s v => exact (InPlace.does_draw p s v).left
  | drawOriented s v => exact (InPlace.does_drawOriented p s v).left
  | blit src r c => exact (InPlace.does_blit src r c p).left
  | blitClipped src r c => exact (InPlace.does_blitClipped src r c p).left
  | blitSized src x y w h c => exact (InPlace.does_blitSized src x y w h c p).left
  | blitSizedClipped src x y w h c => exact (InPlace.does_blitSizedClipped src x y w h c p).left
  | blitOriented src r c => exact (InPlace.does_blitOriented src r c p).left
  | blitOrientedClipped src r c => exact (InPlace.does_blitOrientedClipped src r c p).left

theorem Valid.edited {p : Pixmap} (hp : p.Valid) (e : Edit) : (p.edited e).Valid := by
  rcases p.edit_eq_ok_or_rewritten e with hok | ⟨-, h⟩
  · exact hp.edit hok
  · exact h.valid hp

section Refused
variable {p src : Pixmap}

/-- The errors of a resize are found before anything is assigned. -/
theorem edited_resize_of_error {width height : Nat} {e : Failure}
    (h : (p.resize width height).result = .error e) : p.edited (.resize width height) = p :=
  InPlace.left_of_error (InPlace.on_resize width height) h

theorem edited_putRaw_of_error {x y : Nat} {v : Pixel} {e : Failure}
    (h : p.putRaw x y v = .error e) : p.edited (.putRaw x y v) = p :=
  InPlace.left_of_error (InPlace.on_putRaw x y v) h

/-- Both checks of a copy come before its first write. -/
theorem edited_blit_of_refused {r : Window} {q : Point} {m : Misuse}
    (h : placed src.toFrame p.toFrame r q = .error m) : p.edited (.blit src r q) = p := by
  rw [Pixmap.edited, InPlace.left, InPlace.blit, InPlace.on_get_bind, h]
  rfl

theorem edited_blitOriented_of_refused {r : Window} {q : Point} {m : Misuse}
    (h : placedOriented src.toFrame p.toFrame r q = .error m) :
    p.edited (.blitOriented src r q) = p := by
  rw [Pixmap.edited, InPlace.left, InPlace.blitOriented, InPlace.on_get_bind, h]
  rfl

end Refused

theorem Reachable.valid {p : Pixmap} (h : p.Reachable) : p.Valid := by
  induction h with
  | create h => exact valid_of_create h
  | ofRegistry h => exact valid_of_ofRegistry h
  | ofStandard h => exact valid_of_ofRegistry h
  | new h => exact valid_of_ofRegistry (ofStandard_of_new h)
  | ofData h => exact valid_of_ofData h
  | edited e _ ih => exact ih.edited e

end Pixmap

end Scanline

import Scanline.Format.Basic
/-! The nine formats that every registry starts with. The tag of each is its place in the list. -/

namespace Scanline.Format

def g1 : Format := ⟨0, "G1", .one, [⟨.value, 0, 1⟩]⟩

def g2 : Format := ⟨1, "G2", .two, [⟨.value, 0, 2⟩]⟩

def g4 : Format := ⟨2, "G4", .four, [⟨.value, 0, 4⟩]⟩

def g8 : Format := ⟨3, "G8", .eight, [⟨.value, 0, 8⟩]⟩

def rgb565 : Format :=
  ⟨4, "RGB565", .sixteen, [⟨.red, 11, 5⟩, ⟨.green, 5, 6⟩, ⟨.blue, 0, 5⟩]⟩

def rgb888 : Format :=
  ⟨5, "RGB888", .twentyFour, [⟨.red, 16, 8⟩, ⟨.green, 8, 8⟩, ⟨.blue, 0, 8⟩]⟩

def bgr888 : Format :=
  ⟨6, "BGR888", .twentyFour, [⟨.blue, 16, 8⟩, ⟨.green, 8, 8⟩, ⟨.red, 0, 8⟩]⟩

def xrgb8888 : Format :=
  ⟨7, "xRGB8888", .thirtyTwo, [⟨.pad, 24, 8⟩, ⟨.red, 16, 8⟩, ⟨.green, 8, 8⟩, ⟨.blue, 0, 8⟩]⟩

def rgba8888 : Format :=
  ⟨8, "RGBA8888", .thirtyTwo, [⟨.red, 24, 8⟩, ⟨.green, 16, 8⟩, ⟨.blue, 8, 8⟩, ⟨.alpha, 0, 8⟩]⟩

def standard : List Format :=
  [g1, g2, g4, g8, rgb565, rgb888, bgr888, xrgb8888, rgba8888]

@[simp] theorem length_standard : standard.length = 9 := rfl

theorem tags_standard : standard.map Format.tag = List.range 9 := rfl

end Scanline.Format

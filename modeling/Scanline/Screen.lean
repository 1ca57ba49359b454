import Scanline.Blit.Basic
import Scanline.Damage
import Scanline.Draw
/-! A pixmap together with the damage of the screen that shows it. Everything painted is added to
the damage, so that after a flush the display shows the pixmap. -/

namespace Scanline

structure Screen where
  pixmap : Pixmap
  damage : Damage

namespace Screen

/-- A painted pixmap with its box added to the damage. -/
def record (damage : Damage) (painted : Box × Pixmap) : Box × Screen :=
  (painted.1, ⟨painted.2, damage.add painted.1⟩)

def draw (s : Screen) (shape : Shape) (v : Pixel) : Except Failure (Box × Screen) :=
  let ⟨pixmap, damage⟩ := s
  (pixmap.draw shape v).map (record damage)

/-- Sets every pixel and asks for the whole screen. -/
def fill (s : Screen) (v : Pixel) : Except Failure Screen :=
  let ⟨pixmap, damage⟩ := s
  (pixmap.fill v).map fun pixmap => ⟨pixmap, damage.markFull⟩

/-- Paints by a copy into the pixmap. -/
def copy (s : Screen) (copyInto : Pixmap → Attempt (Box × Pixmap)) : Attempt (Box × Screen) := do
  let ⟨pixmap, damage⟩ := s
  return record damage (← copyInto pixmap)

def blit (s : Screen) (src : Pixmap) (r : Window) (q : Point) : Attempt (Box × Screen) :=
  s.copy fun dst => dst.blit src r q

def blitClipped (s : Screen) (src : Pixmap) (r : Window) (q : Point) : Attempt (Box × Screen) :=
  s.copy fun dst => dst.blitClipped src r q

def blitSized (s : Screen) (src : Pixmap) (x y : Int) (w h : Nat) (q : Point) :
    Attempt (Box × Screen) :=
  s.copy fun dst => dst.blitSized src x y w h q

def blitSizedClipped (s : Screen) (src : Pixmap) (x y : Int) (w h : Nat) (q : Point) :
    Attempt (Box × Screen) :=
  s.copy fun dst => dst.blitSizedClipped src x y w h q

/-- Hands the damage to the display. -/
def flush (s : Screen) : Noted (Redraw × Screen) := do
  let (redraw, damage) ← s.damage.flush
  return (redraw, ⟨s.pixmap, damage⟩)

end Screen

end Scanline

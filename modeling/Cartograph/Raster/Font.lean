import Cartograph.Number.Rounding
import Cartograph.Raster.Coverage

/-! Fonts that turn characters into masks, and the fonts whose glyphs are made of boxes. -/

namespace Cartograph

structure Glyph where
  /-- From the pen to the left edge of the mask. -/
  left : Int
  /-- From the base line up to the lower edge of the mask. -/
  bottom : Int
  mask : Coverage
  advance : Float32

structure Font where
  glyph : Char → Float32 → Glyph

namespace Font

structure Box where
  left : Int
  bottom : Int
  right : Int
  top : Int

namespace Box

def contains (box : Box) (x y : Int) : Bool :=
  box.left ≤ x && x < box.right && box.bottom ≤ y && y < box.top

def hull (a b : Box) : Box :=
  ⟨min a.left b.left, min a.bottom b.bottom, max a.right b.right, max a.top b.top⟩

def map (f : Int → Int) (box : Box) : Box := ⟨f box.left, f box.bottom, f box.right, f box.top⟩

end Box

def glyphOfBoxes (advance : Float32) : List Box → Glyph
  | [] => ⟨0, 0, Coverage.empty, advance⟩
  | box :: rest =>
    let hull := rest.foldl Box.hull box
    let mask : Coverage :=
      { width := (hull.right - hull.left).toNat
        height := (hull.top - hull.bottom).toNat
        value := fun x y =>
          if (box :: rest).any (·.contains (hull.left + x) (hull.top - 1 - y)) then 255 else 0 }
    ⟨hull.left, hull.bottom, mask, advance⟩

/-- Boxes and advances are given in units of the font. Without a positive size there is nothing
to see and the pen does not move. -/
def ofBoxes (unitsPerEm : Nat) (shape : Char → List Box × Int) : Font where
  glyph := fun c size =>
    if 0 < size then
      let (boxes, advance) := shape c
      let scale := size / Float32.ofNat unitsPerEm
      let pixels := fun (units : Int) =>
        Number.singleToPixel (Number.roundSingle (Float32.ofInt units * scale))
      glyphOfBoxes (Float32.ofInt advance * scale) (boxes.map (Box.map pixels))
    else glyphOfBoxes 0 []

end Font

end Cartograph

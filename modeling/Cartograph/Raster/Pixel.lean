import Cartograph.Color.Basic

/-! Pixels with four bytes, whose color channels are already multiplied by alpha. -/

namespace Cartograph

abbrev Pixel := Rgba Nat

namespace Pixel

def transparent : Pixel := ⟨0, 0, 0, 0⟩

/-- Absent where a channel exceeds alpha. -/
def ofChannels? (red green blue alpha : Nat) : Option Pixel :=
  if red ≤ alpha ∧ green ≤ alpha ∧ blue ≤ alpha then some ⟨red, green, blue, alpha⟩ else none

/-- A part of a byte, rounded; the divisor is odd, so there are no ties. -/
def scaled (byte part : Nat) : Nat := (2 * byte * part + 255) / 510

/-- A color with bytes not multiplied by alpha, painted on a pixel. -/
def paint (color : Rgba Nat) (below : Pixel) : Pixel :=
  let channel := fun top bottom => scaled top color.alpha + scaled bottom (255 - color.alpha)
  ⟨channel color.red below.red, channel color.green below.green,
   channel color.blue below.blue, color.alpha + scaled below.alpha (255 - color.alpha)⟩

def unitOfByte (byte : Nat) : Float32 := Float32.ofNat byte * (1 / 255)

def byteOfUnit (x : Float32) : Nat :=
  Number.singleToByte (Number.roundSingleEven (Number.least (Number.greatest x 0) 1 * 255))

/-- A pixel of a finished group, seen with the opacity of the group. Where the group is empty the
pixel below stays as it is. -/
def composite (opacity : Float32) (top below : Pixel) : Pixel :=
  if top.alpha = 0 then below
  else
    let keep := 1 - unitOfByte top.alpha * opacity
    let channel := fun top below => byteOfUnit (unitOfByte top * opacity + unitOfByte below * keep)
    ⟨channel top.red below.red, channel top.green below.green, channel top.blue below.blue,
     channel top.alpha below.alpha⟩

def seen (color : Rgba Nat) (opacity : Float32) (coverage : Nat) : Float32 :=
  Float32.ofNat coverage / 255 * (Float32.ofNat color.alpha / 255 * opacity)

/-- A color seen through a mask. The bytes of the color are not multiplied by alpha. Absent where
the result is no pixel. -/
def blend? (color : Rgba Nat) (opacity : Float32) (coverage : Nat) (below : Pixel) :
    Option Pixel :=
  let alpha := seen color opacity coverage
  if alpha ≤ 0 then some below
  else
    let keep := 1 - alpha
    let total := Number.least
      (Number.roundSingle (alpha * 255 + Float32.ofNat below.alpha * keep)) 255
    let channel := fun (top bottom : Nat) =>
      let mixed := Float32.ofNat top * alpha + Float32.ofNat bottom * keep
      Number.singleToByte (Number.least (Number.roundSingle mixed) total)
    ofChannels? (channel color.red below.red) (channel color.green below.green)
      (channel color.blue below.blue) (Number.singleToByte total)

/-- Where the result is no pixel, the pixel below stays as it is. -/
def blend (color : Rgba Nat) (opacity : Float32) (coverage : Nat) (below : Pixel) : Pixel :=
  (blend? color opacity coverage below).getD below

end Pixel

end Cartograph

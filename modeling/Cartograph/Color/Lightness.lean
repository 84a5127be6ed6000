import Cartograph.Color.Basic

/-! Hue, saturation and lightness, and changing the lightness of a color. Only arithmetic and
comparison are used, so channels may be of any kind that has them. -/

namespace Cartograph

structure Hsl (α : Type) where
  hue : α
  saturation : α
  lightness : α
  deriving BEq, Repr

namespace Rgba

variable {α : Type} [Add α] [Sub α] [Mul α] [Div α] [LT α] [DecidableLT α] [BEq α]
  [OfNat α 0] [OfNat α 1] [OfNat α 2] [OfNat α 3] [OfNat α 6]

/-- Hues that leave the circle by less than a turn come back to it. -/
def wrapHue (hue : α) : α :=
  let raised := if hue < 0 then hue + 1 else hue
  if 1 < raised then raised - 1 else raised

/-- Colors whose channels differ by less than `grey` have no hue. -/
def hsl (grey : α) (color : Rgba α) : Hsl α :=
  let low := Number.least (Number.least color.red color.green) color.blue
  let high := Number.greatest (Number.greatest color.red color.green) color.blue
  let spread := high - low
  let sum := low + high
  let lightness := sum / 2
  if spread < grey then ⟨0, 0, lightness⟩
  else
    let saturation := if lightness < 1 / 2 then spread / sum else spread / (2 - sum)
    let distance := fun (channel : α) => ((high - channel) / 6 + spread / 2) / spread
    let red := distance color.red
    let green := distance color.green
    let blue := distance color.blue
    let hue :=
      if color.red == high then blue - green
      else if color.green == high then 1 / 3 + red - blue
      else 2 / 3 + green - red
    ⟨wrapHue hue, saturation, lightness⟩

/-- Turns a hue back into the range from 0 to 1, by no more than `turns` whole turns each way. -/
def raiseHue (turns : Nat) (hue : α) : α :=
  match turns with
  | 0 => hue
  | turns + 1 => if hue < 0 then raiseHue turns (hue + 1) else hue

def lowerHue (turns : Nat) (hue : α) : α :=
  match turns with
  | 0 => hue
  | turns + 1 => if 1 < hue then lowerHue turns (hue - 1) else hue

def channelOfHue (low high hue : α) : α :=
  if 6 * hue < 1 then low + (high - low) * 6 * hue
  else if 2 * hue < 1 then high
  else if 3 * hue < 2 then low + (high - low) * (2 / 3 - hue) * 6
  else low

/-- A hue less than a turn off the circle needs one turn. -/
def channel (low high hue : α) : α := channelOfHue low high (lowerHue 1 (raiseHue 1 hue))

def ofHsl (alpha : α) (hsl : Hsl α) : Rgba α :=
  let saturation := hsl.saturation
  let lightness := hsl.lightness
  if saturation == 0 then ⟨lightness, lightness, lightness, alpha⟩
  else
    let high :=
      if lightness < 1 / 2 then lightness * (1 + saturation)
      else (lightness + saturation) - saturation * lightness
    let low := 2 * lightness - high
    ⟨channel low high (hsl.hue + 1 / 3), channel low high hsl.hue,
     channel low high (hsl.hue - 1 / 3), alpha⟩

def lightnessWithin (grey : α) (color : Rgba α) : α := (color.hsl grey).lightness

def withLightnessWithin (grey : α) (color : Rgba α) (lightness : α) : Rgba α :=
  ofHsl color.alpha { color.hsl grey with lightness }

def darkenWithin (grey : α) (color : Rgba α) (factor : α) : Rgba α :=
  color.withLightnessWithin grey (color.lightnessWithin grey * factor)

end Rgba

namespace Color

def greySpread : Float := 5e-7

def lightness (color : Color) : Float := color.lightnessWithin greySpread

def withLightness (color : Color) (lightness : Float) : Color :=
  color.withLightnessWithin greySpread lightness

def darken (color : Color) (factor : Float) : Color := color.darkenWithin greySpread factor

end Color

end Cartograph

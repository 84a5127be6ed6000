import Cartograph.Number.Rounding

/-! Colors with channels that arithmetic may take out of the range from 0 to 1; they are
brought back only when a color is turned into bytes. -/

namespace Cartograph

structure Rgba (α : Type) where
  red : α
  green : α
  blue : α
  alpha : α
  deriving BEq, Repr

abbrev Color := Rgba Float

namespace Rgba

variable {α : Type}

def withAlpha (color : Rgba α) (alpha : α) : Rgba α := { color with alpha }

def shift [Add α] (color : Rgba α) (delta : α) : Rgba α :=
  { color with
    red := color.red + delta
    green := color.green + delta
    blue := color.blue + delta }

end Rgba

namespace Color

def solid (red green blue : Float) : Color := ⟨red, green, blue, 1⟩

def black : Color := solid 0 0 0

def white : Color := solid 1 1 1

instance : Inhabited Color := ⟨black⟩

def clampUnit (x : Float) : Float := Number.clamp x 0 1

def clamp (color : Color) : Color :=
  ⟨clampUnit color.red, clampUnit color.green, clampUnit color.blue, clampUnit color.alpha⟩

def byte (channel : Float) : Nat := Number.toByte (Number.round (clampUnit channel * 255))

def bytes (color : Color) : Rgba Nat :=
  ⟨byte color.red, byte color.green, byte color.blue, byte color.alpha⟩

def ofBytes (bytes : Rgba Nat) : Color :=
  ⟨Float.ofNat bytes.red / 255, Float.ofNat bytes.green / 255, Float.ofNat bytes.blue / 255,
   Float.ofNat bytes.alpha / 255⟩

end Color

end Cartograph

import Cartograph.Color.Basic
import Cartograph.Number.Notation

/-! The written form of colors: hexadecimal if opaque, else a function with a decimal alpha. -/

namespace Cartograph.Color

def hexPair (byte : Nat) : String := String.ofList (Number.hexadecimal 2 byte)

def hex (color : Color) : String :=
  let bytes := color.bytes
  "#" ++ hexPair bytes.red ++ hexPair bytes.green ++ hexPair bytes.blue

def text (color : Color) : String :=
  let bytes := color.bytes
  if bytes.alpha = 255 then color.hex
  else "rgba(" ++ toString bytes.red ++ ", " ++ toString bytes.green ++ ", " ++
    toString bytes.blue ++ ", " ++ Number.text (Float.ofNat bytes.alpha / 255) ++ ")"

section Text

variable (color : Color)

theorem text_solid (full_alpha : color.bytes.alpha = 255) :
    color.text.toList = '#' :: (Number.hexadecimal 2 color.bytes.red ++
      (Number.hexadecimal 2 color.bytes.green ++ Number.hexadecimal 2 color.bytes.blue)) := by
  simp [text, hex, hexPair, full_alpha, String.toList_append]

theorem text_translucent (translucent : color.bytes.alpha ≠ 255) :
    color.text.toList = 'r' :: 'g' :: 'b' :: 'a' :: '(' :: ((toString color.bytes.red).toList ++
      ',' :: ' ' :: ((toString color.bytes.green).toList ++ ',' :: ' ' ::
        ((toString color.bytes.blue).toList ++ ',' :: ' ' ::
          ((Number.text (Float.ofNat color.bytes.alpha / 255)).toList ++ [')'])))) := by
  simp [text, translucent, String.toList_append]

theorem text_congr (other : Color) (same : color.bytes = other.bytes) :
    color.text = other.text := by
  unfold text hex
  rw [same]

end Text

end Cartograph.Color

import Cartograph.Canvas.Step
import Cartograph.Text.Pieces

/-! Labels of point features. -/

namespace Cartograph

structure Label where
  text : String
  fill : Color
  size : Float
  outFill : Option Color

namespace Label

def longest : Nat := 26

/-- Quotes come first, so that nothing is unescaped twice. -/
def unescape (text : List Char) : List Char :=
  Text.replaceAll "&amp;".toList ['&'] (Text.replaceAll "&quot;".toList ['"'] text)

def cut (text : List Char) : List Char :=
  if longest < text.length then text.take longest ++ ['.', '.', '.'] else text

def displayed (text : List Char) : List Char := cut (unescape text)

def shown (label : Label) : String := String.ofList (displayed label.text.toList)

def outlineStyle (label : Label) (color : Color) : TextStyle where
  size := label.size
  fill := label.fill
  stroke := some color
  strokeWidth := 3
  opacity := 0.5

def style (label : Label) : TextStyle where
  size := label.size
  fill := label.fill

def steps (label : Label) (position : Point Float) : List (Step Empty) :=
  let outline := label.outFill.map fun color =>
    Step.label label.shown position (label.outlineStyle color)
  outline.toList ++ [.label label.shown position label.style]

end Label

end Cartograph

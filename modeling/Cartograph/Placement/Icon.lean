import Cartograph.Canvas.Step
import Cartograph.Color.Lightness

/-! Icons: shapes on a grid of 16 by 16 units, drawn with the center at their position. -/

namespace Cartograph

structure IconShape where
  path : Path
  fill : Color

structure Icon where
  shapes : List IconShape := []
  /-- Stands in for nodes that nothing more specific matched. -/
  isDefault : Bool := false

namespace Icon

def side : Float := 16

/-- Brighter shapes get a dark outline, all others a bright one. -/
def brightness : Float := 0.78

def outlineStyle (fill : Color) : Style where
  stroke := some ((if brightness < fill.lightness then Color.black else Color.white).withAlpha 0.5)
  width := 2.2
  lineJoin := .round

def shapeSteps (icon : Icon) (position : Point Float) (style : Color → Style) :
    List (Step Empty) :=
  let offset := position - ⟨side / 2, side / 2⟩
  icon.shapes.map fun shape => .shape (Path.shift shape.path offset) (style shape.fill)

/-- The outlines of all shapes lie under their fills. -/
def steps (icon : Icon) (position : Point Float) (isOutlined : Bool) : List (Step Empty) :=
  (if isOutlined then icon.shapeSteps position outlineStyle else []) ++
    icon.shapeSteps position Style.filled

end Icon

end Cartograph

import Cartograph.Rendering.Buildings
import Cartograph.Rendering.Features
import Cartograph.Rendering.Nodes

/-! A scene as the steps that draw it, category after category. -/

namespace Cartograph

namespace Road

def style (color : Color) (width : Float) : Style where
  stroke := some color
  width := width
  lineCap := .round
  lineJoin := .round

def borderStep? (road : Road) : Option (Step Empty) :=
  road.border.map fun color => .polyline road.points (style color (road.width + 2))

def bodyStep (road : Road) : Step Empty := .polyline road.points (style road.color road.width)

/-- The borders of all roads lie under the bodies of all roads. -/
def steps (roads : List Road) : List (Step Empty) :=
  let sorted := sort roads
  sorted.filterMap borderStep? ++ sorted.map bodyStep

end Road

namespace StyledFigure

def step (styled : StyledFigure) : Step Empty := .shape (styled.path Point.origin) styled.style

end StyledFigure

namespace Credit

def textColor : Color := Color.solid (136 / 255) (136 / 255) (136 / 255)

def rightMargin : Float := 15

def bottomMargin : Float := 15

def fontSize : Float := 10

def spacing : Float := 2

/-- The lines with their margins, from the lower right corner. -/
def lines (configuration : Configuration) : List (String × Point Float) :=
  let data := configuration.credit.map fun credit =>
    ("Data: " ++ credit, (⟨rightMargin, bottomMargin + fontSize + spacing⟩ : Point Float))
  ("Rendering: mapdraw", ⟨rightMargin, bottomMargin⟩) :: data.toList

def style : TextStyle where
  size := fontSize
  fill := textColor
  anchor := .finish

def outlineStyle : TextStyle :=
  { style with stroke := some Color.white, strokeWidth := 3, opacity := 0.7 }

def steps (configuration : Configuration) (size : Point Float) : List (Step Empty) :=
  (lines configuration).flatMap fun (text, margin) =>
    [.label text (size - margin) outlineStyle, .label text (size - margin) style]

end Credit

namespace Scene

def backgroundStep (configuration : Configuration) (scene : Scene) : Step Empty :=
  .rectangle Point.origin scene.size (Style.filled configuration.backgroundColor)

def isUnderRoads (configuration : Configuration) (styled : StyledFigure) : Bool :=
  styled.priority.toFloat < configuration.roadPriority

def groundSteps (configuration : Configuration) (scene : Scene) : List (Step Empty) :=
  let (lower, upper) := (StyledFigure.sort scene.figures).partition (isUnderRoads configuration)
  lower.map StyledFigure.step ++ Road.steps scene.roads ++ upper.map StyledFigure.step

def category (isDrawn : Bool) (steps : List (Step Empty)) : List (Step Empty) :=
  if isDrawn then steps else []

def steps (configuration : Configuration) (scene : Scene) : List (Step Empty) :=
  let scheme := configuration.scheme
  backgroundStep configuration scene :: groundSteps configuration scene ++
    category configuration.drawTrees (scene.trees.flatMap (Tree.steps scheme scene.scale)) ++
    category configuration.drawCraters (scene.craters.flatMap (Crater.steps scene.scale)) ++
    category configuration.drawBuildings
      (Buildings.steps configuration scene.buildings scene.scale) ++
    category configuration.drawDirections (scene.directions.flatMap (View.steps scheme)) ++
    category configuration.drawNodes (Features.steps configuration scene.size scene.points) ++
    category configuration.showCredit (Credit.steps configuration scene.size)

def render {σ : Type} [Canvas σ] (configuration : Configuration) (scene : Scene) (surface : σ) :
    Drawn σ Empty :=
  Step.runAll surface (steps configuration scene)

end Scene

end Cartograph

import Cartograph.Building.Bands
import Cartograph.Canvas.Step

/-! Buildings seen from above, or lifted from the ground with their walls, roofs and shade. -/

namespace Cartograph

namespace Building

/-- Construction sites are left open. -/
def roofStyle (building : Building) (useColors : Bool) : Style :=
  let (fill, stroke) := building.roof useColors
  { fill := if building.isConstruction then none else some fill
    stroke := some stroke
    lineJoin := .round }

def roofStep (building : Building) (useColors : Bool) (shift : Point Float) : Step Empty :=
  .shape (building.figure.path shift) (building.roofStyle useColors)

def quadrangle (edge : Point Float × Point Float) (first second : Point Float) : Path :=
  let (p, q) := edge
  [.move (p + first) .absolute, .line (q + first) .absolute, .line (q + second) .absolute,
   .line (p + second) .absolute, .line (p + first) .absolute, .close]

def shadeStyle : Style where
  fill := some Color.black
  stroke := some Color.black

/-- The ground plan moved by the lower height, and what its edges sweep up to the upper one. -/
def shadeSteps (scale : Float) (building : Building) : List (Step Empty) :=
  let low : Point Float := ⟨scale * building.minHeight, 0⟩
  let high : Point Float := ⟨scale * building.height, 0⟩
  let edges := (building.figure.inners ++ building.figure.outers).flatMap Ring.steps
  .shape (building.figure.path low) shadeStyle ::
    edges.map fun edge => .shape (quadrangle edge low high) shadeStyle

end Building

namespace Buildings

def lifted (height lift : Float) : Point Float := ⟨0, -height * lift⟩

def wallStep (configuration : Configuration) (building : Building) (segment : Segment)
    (bottom top lift : Float) : Step Empty :=
  let color := Building.litWall (building.baseWallColor configuration.useBuildingColors)
    segment.angle top building.isConstruction configuration.extrusion
  .shape
    (Building.quadrangle (segment.first, segment.second) (lifted bottom lift) (lifted top lift))
    { fill := some color, stroke := some color, lineJoin := .round }

def bandSteps (configuration : Configuration) (buildings : Array Building) (lift : Float) :
    Bands.Step → List (Step Empty)
  | .wall wall bottom top =>
    (buildings[wall.building]?.map fun building =>
      wallStep configuration building wall.segment bottom top lift).toList
  | .roof index _ =>
    if configuration.drawRoofs then
      (buildings[index]?.map fun building =>
        building.roofStep configuration.useBuildingColors (lifted building.height lift)).toList
    else []

def isometricSteps (configuration : Configuration) (buildings : List Building) (scale : Float) :
    List (Step Empty) :=
  let extrusion := configuration.extrusion
  let shade := Step.group extrusion.shadeOpacity
    (buildings.flatMap (Building.shadeSteps (scale * extrusion.shadeScale)))
  let plan := Bands.plan (Bands.heights buildings extrusion) buildings (Wall.ofBuildings buildings)
  shade :: plan.flatMap
    (bandSteps configuration buildings.toArray (scale * extrusion.buildingScale))

def steps (configuration : Configuration) (buildings : List Building) (scale : Float) :
    List (Step Empty) :=
  match configuration.buildingMode with
  | .no => []
  | .flat => buildings.map (·.roofStep configuration.useBuildingColors Point.origin)
  | .isometric => isometricSteps configuration buildings scale

end Buildings

end Cartograph

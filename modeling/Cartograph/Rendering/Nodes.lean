import Cartograph.Scene.Basic
import Cartograph.Sector

/-! Trees, craters and directions of view: discs and wedges around tagged nodes. -/

namespace Cartograph

def discStep (center : Point Float) (radius : Float) (color : Color) : Step Empty :=
  .shape (Path.circle center radius) (Style.filled color)

namespace Tree

/-- In map units, where no tag gives the diameter of the crown. -/
def defaultCrownRadius : Float := 2

def crownRadius (tags : Tags) : Float :=
  ((Tags.number? tags "diameter_crown").map (· / 2)).getD defaultCrownRadius

def trunkRadius? (tags : Tags) : Option Float :=
  (Tags.number? tags "circumference").map (· / 2 / Path.pi)

/-- The trunk is drawn over the crown. -/
def steps (scheme : ColorScheme) (scale : Float) (tree : Node) : List (Step Empty) :=
  let crown :=
    discStep tree.point (crownRadius tree.tags * scale) (scheme.evergreen.withAlpha 0.3)
  let trunk := (trunkRadius? tree.tags).map fun radius =>
    discStep tree.point (radius * scale) scheme.trunk
  crown :: trunk.toList

end Tree

namespace Crater

def radius? (tags : Tags) : Option Float := (Tags.number? tags "diameter").map (· / 2)

/-- A crater of unknown size is left out. -/
def steps (scale : Float) (crater : Node) : List (Step Empty) :=
  ((radius? crater.tags).map fun radius =>
    discStep crater.point (radius * scale) (Color.black.withAlpha 0.1)).toList

end Crater

structure View where
  direction : Option String
  /-- A given angle makes the direction a single one. -/
  angle : Option Float
  radius : Float
  color : Color

namespace View

def ofTags (scheme : ColorScheme) (tags : Tags) : View :=
  if tags.get? "man_made" == some "surveillance" then
    { direction := tags.get? "camera:direction"
      angle := (Tags.number? tags "angle").orElse fun _ => Tags.number? tags "camera:angle"
      radius := 50
      color := scheme.directionCamera.withAlpha 0.2 }
  else if tags.get? "traffic_sign" == some "stop" then
    { direction := tags.get? "direction"
      angle := none
      radius := 25
      color := (Color.solid 1 0 0).withAlpha 0.2 }
  else
    { direction := tags.get? "direction"
      angle := none
      radius := 50
      color := scheme.directionView.withAlpha 0.35 }

def sectors (view : View) : List Sector :=
  match view.direction.filter (!·.isEmpty) with
  | none => []
  | some text =>
    match view.angle with
    | some angle => (Sector.read? text.toList (some angle)).toList
    | none => Sector.readAll text.toList

def steps (scheme : ColorScheme) (node : Node) : List (Step Empty) :=
  let view := ofTags scheme node.tags
  view.sectors.map fun sector =>
    .shape (sector.path node.point.truncate view.radius) (Style.filled view.color)

end View

end Cartograph

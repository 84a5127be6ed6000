import Cartograph.Building.Segment
import Cartograph.Color.Lightness
import Cartograph.Color.Reader
import Cartograph.Configuration
import Cartograph.Figure.Basic

/-! Buildings: heights and colors from tags, and walls along the rings. -/

namespace Cartograph

structure Building where
  figure : Figure
  height : Float
  minHeight : Float
  wallColor : Color
  defaultWallColor : Color
  fill : Color
  stroke : Color
  defaultFill : Color
  defaultStroke : Color
  isConstruction : Bool
  hasWalls : Bool
  /-- Walls from far to near. -/
  parts : List Segment

namespace Building

/-- The number of levels counts before the length; zeros are as good as nothing. -/
def heightFromTags? (tags : Tags) (levels length : String) (extrusion : Extrusion) :
    Option Float :=
  match (Tags.number? tags levels).filter (· != 0) with
  | some count => some (extrusion.minimalHeight + count * extrusion.levelHeight)
  | none => ((Tags.length? tags length).filter (· != 0)).map (extrusion.minimalHeight + ·)

def wallsOf (rings : List (List (Point Number.Rank))) : List Segment :=
  Segment.sort <| rings.flatMap fun ring =>
    (Ring.steps ring).map fun (p, q) => Segment.between p q

def colorTag? (figure : Figure) (key : String) : Option Color :=
  (figure.tag? key).bind Color.read?

def roofColors (figure : Figure) (scheme : ColorScheme) : Color × Color :=
  match colorTag? figure "roof:colour" with
  | some fill => (fill, fill.darken 0.85)
  | none => (scheme.building, scheme.buildingBorder)

/-- A known material counts before the color of the building. -/
def wallColorTag? (figure : Figure) (scheme : ColorScheme) : Option Color :=
  ((figure.tag? "building:material").bind scheme.materials.get?).orElse fun _ =>
    (colorTag? figure "building:colour").orElse fun _ => colorTag? figure "colour"

def ofRings (tags : Tags) (inners outers : List (List (Point Number.Rank)))
    (scheme : ColorScheme) (extrusion : Extrusion) : Building :=
  let (inners, outers) := Ring.normalizeBy Point.floats inners outers
  let floats := List.map fun ring : List (Point Number.Rank) => ring.map Point.floats
  let figure : Figure := ⟨tags, floats inners, floats outers⟩
  let isConstruction :=
    figure.tag? "building" == some "construction" || figure.tag? "construction" == some "yes"
  let defaultWallColor := if isConstruction then scheme.constructionWall else scheme.wall
  let (fill, stroke) := roofColors figure scheme
  { figure
    height := (heightFromTags? tags "building:levels" "height" extrusion).getD
      extrusion.minimalHeight
    minHeight := (heightFromTags? tags "building:min_level" "min_height" extrusion).getD 0
    wallColor := (wallColorTag? figure scheme).getD defaultWallColor
    defaultWallColor
    fill
    stroke
    defaultFill := if isConstruction then scheme.construction else scheme.building
    defaultStroke := if isConstruction then scheme.constructionBorder else scheme.buildingBorder
    isConstruction
    hasWalls := figure.tag? "building" != some "roof"
    parts := wallsOf (inners ++ outers) }

def roof (building : Building) (useColors : Bool) : Color × Color :=
  if useColors then (building.fill, building.stroke)
  else (building.defaultFill, building.defaultStroke)

def baseWallColor (building : Building) (useColors : Bool) : Color :=
  if useColors then building.wallColor else building.defaultWallColor

/-- The color of a wall in the band that ends at `top`. Construction sites may leave the range
of channels on purpose. -/
def litWall (base : Color) (angle top : Float) (isConstruction : Bool) (extrusion : Extrusion) :
    Color :=
  if isConstruction then base.shift (angle * 0.2)
  else if top ≤ extrusion.lowHeight then base.darken 0.70
  else if top ≤ extrusion.middleHeight then base.darken 0.85
  else Color.clamp (base.shift (angle * 0.2 - 0.1))

end Building

end Cartograph

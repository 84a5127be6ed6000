import Cartograph.Number.Notation
import Cartograph.Path.Reader
import Cartograph.Record.Source
import Cartograph.Scene.Basic

/-! Loading scenes: their source is read, checked and projected onto the canvas. -/

namespace Cartograph.Scene

inductive IconRole where
  | main
  | extra
  | substitute
  deriving DecidableEq, Repr

structure IconFault where
  path : String
  fault : Path.Fault

inductive Fault where
  | document (fault : Document.Fault)
  | emptyBounds
  | invalidScale (scale : Float)
  | icon (point : Nat) (role : IconRole) (fault : IconFault)

namespace IconRole

def name : IconRole → String
  | main => "main icon"
  | extra => "extra icons"
  | substitute => "default icon"

end IconRole

namespace Fault

/-- From the outermost cause to the innermost. -/
def causes : Fault → List String
  | document .malformed => ["parse scene json"]
  | document (.rejected reason) => ["parse scene json", reason]
  | emptyBounds => ["scene bounds must have a positive size"]
  | invalidScale scale => ["scene scale must be positive, got " ++ Number.text scale]
  | icon point role inner =>
    ["point " ++ toString point ++ ": " ++ role.name, "icon path `" ++ inner.path ++ "`",
     inner.fault.message]

def message (fault : Fault) : String := ": ".intercalate fault.causes

end Fault

def loadShape (source : Source.IconShape) : Except IconFault IconShape :=
  match Path.read source.path with
  | .ok path => .ok ⟨path, source.fill⟩
  | .error fault => .error ⟨source.path, fault⟩

def loadIcon (source : Source.Icon) : Except IconFault Icon := do
  let shapes ← source.shapes.mapM loadShape
  return { shapes, isDefault := source.isDefault }

def loadLabel (scheme : ColorScheme) (source : Source.Label) : Label where
  text := source.text
  fill := source.fill.getD scheme.label
  size := source.size
  outFill := source.outFill

/-- Names in order, each once. -/
def nameSet (names : List String) : List String :=
  (Table.ofList (names.map fun name => (name, ()))).names

def loadFeature (scheme : ColorScheme) (projection : Projection) (index : Nat)
    (source : Source.Feature) : Except Fault Feature := do
  let mainIcon ← (loadIcon source.icon).mapError (.icon index .main)
  let extraIcons ← (source.extraIcons.mapM loadIcon).mapError (.icon index .extra)
  let defaultIcon ← (source.defaultIcon.mapM loadIcon).mapError (.icon index .substitute)
  return {
    tags := source.tags
    processed := nameSet source.processed
    mainIcon
    extraIcons
    defaultIcon
    labels := source.labels.map (loadLabel scheme)
    point := projection.project source.point
    priority := .ofFloat source.priority
    isForNode := source.isForNode
    isOutlined := source.isOutlined }

def loadFeatures (scheme : ColorScheme) (projection : Projection) (index : Nat) :
    List Source.Feature → Except Fault (List Feature)
  | [] => .ok []
  | source :: rest => do
    let feature ← loadFeature scheme projection index source
    let features ← loadFeatures scheme projection (index + 1) rest
    return feature :: features

def projectLines (projection : Projection) (lines : List Source.Line) : List Ring :=
  lines.map fun line => line.map projection.project

def loadFigure (projection : Projection) (source : Source.Figure) : StyledFigure where
  figure := Figure.ofRings source.tags (projectLines projection source.inners)
    (projectLines projection source.outers)
  style := source.style
  priority := .ofFloat source.priority
  parallel := source.parallel

def loadBuilding (configuration : Configuration) (projection : Projection)
    (source : Source.Building) : Building :=
  let ranks := fun lines => (projectLines projection lines).map fun ring => ring.map Point.ranks
  Building.ofRings source.tags (ranks source.inners) (ranks source.outers) configuration.scheme
    configuration.extrusion

def loadRoad (projection : Projection) (source : Source.Road) : Road where
  tags := source.tags
  points := source.points.map projection.project
  width := source.width * projection.scale
  color := source.color
  border := source.border
  priority := .ofFloat source.priority

def loadNode (projection : Projection) (source : Source.Node) : Node :=
  ⟨source.tags, projection.project source.point⟩

def hasSize (bounds : Bounds) : Bool := 0 < bounds.width && 0 < bounds.height

def ofSource (configuration : Configuration) (source : Source.Scene) : Except Fault Scene :=
  if !hasSize source.bounds then .error .emptyBounds
  else if !(source.scale.isFinite && 0 < source.scale) then .error (.invalidScale source.scale)
  else do
    let projection : Projection := ⟨source.bounds, source.scale⟩
    let points ← loadFeatures configuration.scheme projection 0 source.points
    return {
      size := projection.size
      scale := projection.scale
      figures := source.figures.map (loadFigure projection)
      buildings := source.buildings.map (loadBuilding configuration projection)
      roads := source.roads.map (loadRoad projection)
      trees := source.trees.map (loadNode projection)
      craters := source.craters.map (loadNode projection)
      directions := source.directions.map (loadNode projection)
      points }

def read (configuration : Configuration) (text : String) : Except Fault Scene :=
  match Document.decode Source.Scene.decode text with
  | .ok source => ofSource configuration source
  | .error fault => .error (.document fault)

end Cartograph.Scene

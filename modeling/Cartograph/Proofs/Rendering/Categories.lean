import Cartograph.Proofs.Building.Tiling
import Cartograph.Proofs.Rendering.Painting

/-! The categories of a picture do not interfere. Leaving one out takes one block of lines from the
drawing, and that block depends on nothing but what belongs to the category. -/

namespace Cartograph

namespace Category

def Agrees (category : Category) (configuration : Configuration) (scene : Scene)
    (other : Configuration) (another : Scene) : Prop :=
  another.size = scene.size ∧ another.scale = scene.scale ∧
    match category with
    | trees => another.trees = scene.trees ∧
        other.scheme.evergreen = configuration.scheme.evergreen ∧
        other.scheme.trunk = configuration.scheme.trunk
    | craters => another.craters = scene.craters
    | buildings => another.buildings = scene.buildings ∧
        other.buildingMode = configuration.buildingMode ∧
        other.extrusion = configuration.extrusion ∧
        other.drawRoofs = configuration.drawRoofs ∧
        other.useBuildingColors = configuration.useBuildingColors
    | directions => another.directions = scene.directions ∧
        other.scheme.directionCamera = configuration.scheme.directionCamera ∧
        other.scheme.directionView = configuration.scheme.directionView
    | nodes => another.points = scene.points ∧ other.labelMode = configuration.labelMode ∧
        other.overlap = configuration.overlap
    | credit => other.credit = configuration.credit

section Agreement

variable {configuration other : Configuration} {scene another : Scene}

end Agreement

end Category

namespace Scene

section Layers

variable (shown : Category) (isDrawn : Bool) (configuration : Configuration) (scene : Scene)

end Layers

end Scene

end Cartograph

import Mathlib
import Cartograph.Rendering.Basic

/-! The layers of a picture. The ground lies under all others; every other layer belongs to a
category of things that may be left out. -/

namespace Cartograph

inductive Category where
  | trees
  | craters
  | buildings
  | directions
  | nodes
  | credit

namespace Category

/-- A configuration in which a category is drawn or not, and which is otherwise the same. -/
def set (category : Category) (isDrawn : Bool) (configuration : Configuration) : Configuration :=
  match category with
  | trees => { configuration with drawTrees := isDrawn }
  | craters => { configuration with drawCraters := isDrawn }
  | buildings => { configuration with drawBuildings := isDrawn }
  | directions => { configuration with drawDirections := isDrawn }
  | nodes => { configuration with drawNodes := isDrawn }
  | credit => { configuration with showCredit := isDrawn }

def isDrawn (category : Category) (configuration : Configuration) : Bool :=
  match category with
  | trees => configuration.drawTrees
  | craters => configuration.drawCraters
  | buildings => configuration.drawBuildings
  | directions => configuration.drawDirections
  | nodes => configuration.drawNodes
  | credit => configuration.showCredit

def steps (category : Category) (configuration : Configuration) (scene : Scene) :
    List (Step Empty) :=
  match category with
  | trees => scene.trees.flatMap (Tree.steps configuration.scheme scene.scale)
  | craters => scene.craters.flatMap (Crater.steps scene.scale)
  | buildings => Buildings.steps configuration scene.buildings scene.scale
  | directions => scene.directions.flatMap (View.steps configuration.scheme)
  | nodes => Features.steps configuration scene.size scene.points
  | credit => Credit.steps configuration scene.size

/-- From the lowest layer to the highest. -/
def all : List Category := [trees, craters, buildings, directions, nodes, credit]

end Category

namespace Scene

def layer (configuration : Configuration) (scene : Scene) (shown : Category) :
    List (Step Empty) :=
  category (shown.isDrawn configuration) (shown.steps configuration scene)

theorem steps_eq_layers (configuration : Configuration) (scene : Scene) :
    steps configuration scene = backgroundStep configuration scene ::
      groundSteps configuration scene ++ Category.all.flatMap (layer configuration scene) := by
  simp [steps, Category.all, layer, Category.isDrawn, Category.steps]

end Scene

end Cartograph

import Cartograph.Building.Basic

/-! The order in which extruded buildings are drawn. The heights of a scene cut the vertical
axis into bands; every band draws its walls from far to near before the roofs at its top, so
that near walls cover the roofs behind them. -/

namespace Cartograph

structure Wall where
  segment : Segment
  building : Nat
  part : Nat

namespace Wall

def sort (walls : List Wall) : List Wall :=
  walls.mergeSort fun a b => (a.segment.compare b.segment).isLE

def ofBuildings (buildings : List Building) : List Wall :=
  sort <| buildings.zipIdx.flatMap fun (building, index) =>
    building.parts.zipIdx.map fun (segment, part) => ⟨segment, index, part⟩

end Wall

namespace Bands

/-- Of neighbours that are equal as numbers the first is kept. -/
def dropEqualAfter (kept : Float) : List Float → List Float
  | [] => []
  | x :: rest => if x == kept then dropEqualAfter kept rest else x :: dropEqualAfter x rest

def dropEqual : List Float → List Float
  | [] => []
  | x :: rest => x :: dropEqualAfter x rest

def sort (heights : List Float) : List Float :=
  heights.mergeSort fun a b => (compare (Number.Rank.ofFloat a) (Number.Rank.ofFloat b)).isLE

def normalize (heights : List Float) : List Float :=
  dropEqual (sort (heights.filter (·.isFinite)))

def heights (buildings : List Building) (extrusion : Extrusion) : List Float :=
  normalize <| extrusion.lowHeight :: extrusion.middleHeight ::
    buildings.flatMap fun building => [building.height, building.minHeight]

inductive Step where
  | wall (wall : Wall) (bottom top : Float)
  | roof (building : Nat) (top : Float)

def stands (building : Building) (top : Float) : Bool :=
  building.hasWalls && !(building.height < top) && !(top ≤ building.minHeight)

def wallSteps (buildings : Array Building) (walls : List Wall) (bottom top : Float) : List Step :=
  (walls.filter fun wall => (buildings[wall.building]?).any (stands · top)).map
    fun wall => .wall wall bottom top

def roofSteps (buildings : Array Building) (top : Float) : List Step :=
  (buildings.toList.zipIdx.filter fun (building, _) => building.height == top).map
    fun (_, index) => .roof index top

def planFrom (buildings : Array Building) (walls : List Wall) (bottom : Float) :
    List Float → List Step
  | [] => []
  | top :: rest =>
    wallSteps buildings walls bottom top ++ roofSteps buildings top ++
      planFrom buildings walls top rest

/-- The lowest band begins at height 0. -/
def plan (heights : List Float) (buildings : List Building) (walls : List Wall) : List Step :=
  planFrom buildings.toArray walls 0 (normalize heights)

end Bands

end Cartograph

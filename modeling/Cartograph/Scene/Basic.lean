import Cartograph.Building.Basic
import Cartograph.Placement.Feature

/-! Scenes in canvas coordinates, and the order in which their parts are drawn. -/

namespace Cartograph

structure Road where
  tags : Tags
  points : List (Point Float)
  width : Float
  color : Color
  /-- Painted under all roads, one unit wider on each side. -/
  border : Option Color
  priority : Number.Rank

structure Node where
  tags : Tags
  point : Point Float

structure Scene where
  size : Point Float
  /-- Canvas units per map unit. -/
  scale : Float
  figures : List StyledFigure
  buildings : List Building
  roads : List Road
  trees : List Node
  craters : List Node
  directions : List Node
  points : List Feature

namespace Road

protected def compare (a b : Road) : Ordering := compare a.priority b.priority

/-- Equal roads keep their order. -/
def sort (roads : List Road) : List Road := roads.mergeSort fun a b => (a.compare b).isLE

end Road

namespace Feature

/-- The highest priority comes first. -/
protected def compare (a b : Feature) : Ordering := compare b.priority a.priority

def sort (features : List Feature) : List Feature :=
  features.mergeSort fun a b => (a.compare b).isLE

end Feature

end Cartograph

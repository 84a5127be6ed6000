import Cartograph.Configuration
import Cartograph.Geometry.Projection
import Cartograph.Style

/-! Scenes as they are written: in map coordinates, and with paths still to be read. -/

namespace Cartograph.Source

abbrev Line := List (Point Float)

structure Figure where
  tags : Tags := Table.empty
  inners : List Line := []
  outers : List Line := []
  style : Style := {}
  priority : Float := 0
  parallel : Float := 0

structure Building where
  tags : Tags := Table.empty
  inners : List Line := []
  outers : List Line

structure Road where
  tags : Tags := Table.empty
  points : Line
  /-- In map units, like all lengths of a source. -/
  width : Float := 5
  color : Color := Color.white
  border : Option Color := none
  priority : Float := 0

structure Node where
  tags : Tags := Table.empty
  point : Point Float

structure IconShape where
  path : String
  fill : Color := Color.solid 0.267 0.267 0.267

structure Icon where
  shapes : List IconShape := []
  isDefault : Bool := false

structure Label where
  text : String
  fill : Option Color := none
  size : Float := 10
  outFill : Option Color := none

structure Feature where
  tags : Tags := Table.empty
  processed : List String := []
  point : Point Float
  icon : Icon := {}
  extraIcons : List Icon := []
  defaultIcon : Option Icon := none
  labels : List Label := []
  priority : Float := 0
  isForNode : Bool := true
  isOutlined : Bool := true

structure Scene where
  bounds : Bounds
  /-- Canvas units per map unit. -/
  scale : Float
  figures : List Figure := []
  buildings : List Building := []
  roads : List Road := []
  trees : List Node := []
  craters : List Node := []
  directions : List Node := []
  points : List Feature := []

end Cartograph.Source

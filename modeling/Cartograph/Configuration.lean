import Cartograph.Color.Basic
import Cartograph.Table

/-! What of a scene is drawn, and in which colors. -/

namespace Cartograph

inductive BuildingMode where
  | no
  | flat
  | isometric
  deriving DecidableEq, Repr, Inhabited

inductive LabelMode where
  | no
  | main
  | all
  deriving DecidableEq, Repr, Inhabited

structure Extrusion where
  /-- Added to every height that tags give. -/
  minimalHeight : Float := 8
  levelHeight : Float := 2.5
  /-- Canvas units per unit of height at map scale 1. -/
  buildingScale : Float := 0.33
  shadeScale : Float := 0.4
  shadeOpacity : Float := 0.1

namespace Extrusion

/-- Walls are darker below the first height and less so below the second. -/
def lowHeight (extrusion : Extrusion) : Float := 0.25 / extrusion.buildingScale

def middleHeight (extrusion : Extrusion) : Float := 0.5 / extrusion.buildingScale

end Extrusion

namespace Color

def ofHex (value : Nat) : Color :=
  solid (Float.ofNat (value / 0x10000 % 0x100) / 255) (Float.ofNat (value / 0x100 % 0x100) / 255)
    (Float.ofNat (value % 0x100) / 255)

end Color

structure ColorScheme where
  background : Color := Color.ofHex 0xEEEEE4
  building : Color := Color.ofHex 0xD8D0C8
  buildingBorder : Color := Color.ofHex 0xC4C0BB
  construction : Color := Color.ofHex 0xF0EBE6
  constructionBorder : Color := Color.ofHex 0xD0CCC8
  wall : Color := Color.ofHex 0xE8E0D8
  constructionWall : Color := Color.ofHex 0xC8C0B8
  evergreen : Color := Color.ofHex 0x688C44
  trunk : Color := Color.ofHex 0x805533
  directionView : Color := Color.ofHex 0xE0F0FF
  directionCamera : Color := Color.ofHex 0x0088FF
  label : Color := Color.ofHex 0x444444
  labelOutline : Color := Color.white
  materials : Table Color := Table.ofList [
    ("brick", Color.ofHex 0x8C4F3F), ("concrete", Color.ofHex 0xC8C8C0),
    ("glass", Color.ofHex 0xA8C8D8), ("metal", Color.ofHex 0xA0A4A8),
    ("plaster", Color.ofHex 0xE8E0D0), ("stone", Color.ofHex 0xB0A898),
    ("timber_framing", Color.ofHex 0xA07850), ("wood", Color.ofHex 0xB08860)]

structure Configuration where
  scheme : ColorScheme := {}
  extrusion : Extrusion := {}
  buildingMode : BuildingMode := .flat
  labelMode : LabelMode := .main
  /-- Half the side of the square that an icon reserves; without it nothing is reserved. -/
  overlap : Nat := 12
  drawRoofs : Bool := true
  useBuildingColors : Bool := false
  drawBuildings : Bool := true
  drawTrees : Bool := true
  drawCraters : Bool := true
  drawDirections : Bool := true
  drawNodes : Bool := true
  /-- Figures of this priority or above are drawn over the roads. -/
  roadPriority : Float := 40
  background : Option Color := none
  credit : Option String := some "© OpenStreetMap contributors"
  showCredit : Bool := true

namespace Configuration

def backgroundColor (configuration : Configuration) : Color :=
  configuration.background.getD configuration.scheme.background

end Configuration

end Cartograph

import Cartograph.Configuration
import Cartograph.Record.Style

/-! Configurations as documents. Whatever is left out has its default. -/

namespace Cartograph

open Document

namespace BuildingMode

def names : List (String × BuildingMode) :=
  [("no", .no), ("flat", .flat), ("isometric", .isometric)]

def name : BuildingMode → String
  | .no => "no"
  | .flat => "flat"
  | .isometric => "isometric"

end BuildingMode

namespace LabelMode

def names : List (String × LabelMode) := [("no", .no), ("main", .main), ("all", .all)]

def name : LabelMode → String
  | .no => "no"
  | .main => "main"
  | .all => "all"

end LabelMode

namespace Extrusion

def fields : List (Slot Extrusion) := [
  .optional "minimal_height" decodeFloat
    fun extrusion minimalHeight => { extrusion with minimalHeight },
  .optional "level_height" decodeFloat fun extrusion levelHeight => { extrusion with levelHeight },
  .optional "building_scale" decodeFloat
    fun extrusion buildingScale => { extrusion with buildingScale },
  .optional "shade_scale" decodeFloat fun extrusion shadeScale => { extrusion with shadeScale },
  .optional "shade_opacity" decodeFloat
    fun extrusion shadeOpacity => { extrusion with shadeOpacity }]

def decode : Decoder Extrusion := decodeRecord fields {}

def toDocument (extrusion : Extrusion) : Document := ofMembers [
  ("minimal_height", ofFloat extrusion.minimalHeight),
  ("level_height", ofFloat extrusion.levelHeight),
  ("building_scale", ofFloat extrusion.buildingScale),
  ("shade_scale", ofFloat extrusion.shadeScale),
  ("shade_opacity", ofFloat extrusion.shadeOpacity)]

end Extrusion

namespace ColorScheme

def colorField (name : String) (put : ColorScheme → Color → ColorScheme) : Slot ColorScheme :=
  .optional name Color.decode put

def fields : List (Slot ColorScheme) := [
  colorField "background_color" fun scheme background => { scheme with background },
  colorField "building_color" fun scheme building => { scheme with building },
  colorField "building_border_color" fun scheme buildingBorder => { scheme with buildingBorder },
  colorField "building_construction_color" fun scheme construction => { scheme with construction },
  colorField "building_construction_border_color"
    fun scheme constructionBorder => { scheme with constructionBorder },
  colorField "wall_color" fun scheme wall => { scheme with wall },
  colorField "wall_construction_color"
    fun scheme constructionWall => { scheme with constructionWall },
  colorField "evergreen_color" fun scheme evergreen => { scheme with evergreen },
  colorField "trunk_color" fun scheme trunk => { scheme with trunk },
  colorField "direction_view_color" fun scheme directionView => { scheme with directionView },
  colorField "direction_camera_color" fun scheme directionCamera => { scheme with directionCamera },
  colorField "label_color" fun scheme label => { scheme with label },
  colorField "label_outline_color" fun scheme labelOutline => { scheme with labelOutline },
  .optional "material_colors" (decodeTable Color.decode)
    fun scheme materials => { scheme with materials }]

def decode : Decoder ColorScheme := decodeRecord fields {}

def toDocument (scheme : ColorScheme) : Document := ofMembers [
  ("background_color", scheme.background.toDocument),
  ("building_color", scheme.building.toDocument),
  ("building_border_color", scheme.buildingBorder.toDocument),
  ("building_construction_color", scheme.construction.toDocument),
  ("building_construction_border_color", scheme.constructionBorder.toDocument),
  ("wall_color", scheme.wall.toDocument),
  ("wall_construction_color", scheme.constructionWall.toDocument),
  ("evergreen_color", scheme.evergreen.toDocument),
  ("trunk_color", scheme.trunk.toDocument),
  ("direction_view_color", scheme.directionView.toDocument),
  ("direction_camera_color", scheme.directionCamera.toDocument),
  ("label_color", scheme.label.toDocument),
  ("label_outline_color", scheme.labelOutline.toDocument),
  ("material_colors", ofTable Color.toDocument scheme.materials)]

end ColorScheme

namespace Configuration

def flag (name : String) (put : Configuration → Bool → Configuration) : Slot Configuration :=
  .optional name decodeBool put

def fields : List (Slot Configuration) := [
  .optional "scheme" ColorScheme.decode fun configuration scheme => { configuration with scheme },
  .optional "buildings" Extrusion.decode
    fun configuration extrusion => { configuration with extrusion },
  .optional "building_mode" (decodeWord BuildingMode.names)
    fun configuration buildingMode => { configuration with buildingMode },
  .optional "label_mode" (decodeWord LabelMode.names)
    fun configuration labelMode => { configuration with labelMode },
  .optional "overlap" decodeNatural fun configuration overlap => { configuration with overlap },
  flag "draw_roofs" fun configuration drawRoofs => { configuration with drawRoofs },
  flag "use_building_colors"
    fun configuration useBuildingColors => { configuration with useBuildingColors },
  flag "draw_buildings" fun configuration drawBuildings => { configuration with drawBuildings },
  flag "draw_trees" fun configuration drawTrees => { configuration with drawTrees },
  flag "draw_craters" fun configuration drawCraters => { configuration with drawCraters },
  flag "draw_directions" fun configuration drawDirections => { configuration with drawDirections },
  flag "draw_nodes" fun configuration drawNodes => { configuration with drawNodes },
  .optional "road_priority" decodeFloat
    fun configuration roadPriority => { configuration with roadPriority },
  .optional "background_color" (decodeOptional Color.decode)
    fun configuration background => { configuration with background },
  .optional "credit" (decodeOptional decodeText)
    fun configuration credit => { configuration with credit },
  flag "show_credit" fun configuration showCredit => { configuration with showCredit }]

def decode : Decoder Configuration := decodeRecord fields {}

def toDocument (configuration : Configuration) : Document := ofMembers [
  ("scheme", configuration.scheme.toDocument),
  ("buildings", configuration.extrusion.toDocument),
  ("building_mode", ofText configuration.buildingMode.name),
  ("label_mode", ofText configuration.labelMode.name),
  ("overlap", ofNat configuration.overlap),
  ("draw_roofs", .bool configuration.drawRoofs),
  ("use_building_colors", .bool configuration.useBuildingColors),
  ("draw_buildings", .bool configuration.drawBuildings),
  ("draw_trees", .bool configuration.drawTrees),
  ("draw_craters", .bool configuration.drawCraters),
  ("draw_directions", .bool configuration.drawDirections),
  ("draw_nodes", .bool configuration.drawNodes),
  ("road_priority", ofFloat configuration.roadPriority),
  ("background_color", ofOption Color.toDocument configuration.background),
  ("credit", ofOption ofText configuration.credit),
  ("show_credit", .bool configuration.showCredit)]

end Configuration

end Cartograph

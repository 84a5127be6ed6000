import Cartograph.Building.Basic
import Cartograph.Record.Geometry
import Cartograph.Record.Style

/-! Figures and buildings as documents. A value that is read is taken as it is: rings keep their
direction and walls their order. -/

namespace Cartograph

open Document

namespace Tags

def decode : Decoder Tags := decodeTable decodeText

def toDocument (tags : Tags) : Document := ofTable Document.ofText tags

end Tags

namespace Ring

def decode : Decoder Ring := decodeList Point.decode

def toDocument (ring : Ring) : Document := ofList Point.toDocument ring

end Ring

namespace Figure

def fields : List (Slot Figure) := [
  .required "tags" Tags.decode fun figure tags => { figure with tags },
  .required "inners" (decodeList Ring.decode) fun figure inners => { figure with inners },
  .required "outers" (decodeList Ring.decode) fun figure outers => { figure with outers }]

def blank : Figure := ⟨Table.empty, [], []⟩

def decode : Decoder Figure := decodeRecord fields blank

def toDocument (figure : Figure) : Document := ofMembers [
  ("tags", Tags.toDocument figure.tags),
  ("inners", ofList Ring.toDocument figure.inners),
  ("outers", ofList Ring.toDocument figure.outers)]

end Figure

namespace StyledFigure

def fields : List (Slot StyledFigure) := [
  .required "figure" Figure.decode fun styled figure => { styled with figure },
  .required "style" Style.decode fun styled style => { styled with style },
  .required "priority" Number.Rank.decode fun styled priority => { styled with priority },
  .optional "parallel_offset" decodeFloat fun styled parallel => { styled with parallel }]

def decode : Decoder StyledFigure :=
  decodeRecord fields { figure := Figure.blank, style := {}, priority := default }

def toDocument (styled : StyledFigure) : Document := ofMembers [
  ("figure", styled.figure.toDocument),
  ("style", styled.style.toDocument),
  ("priority", styled.priority.toDocument),
  ("parallel_offset", ofFloat styled.parallel)]

end StyledFigure

namespace Segment

def fields : List (Slot Segment) := [
  .required "point_1" Point.decode fun segment p => { segment with tail := p.ranks },
  .required "point_2" Point.decode fun segment p => { segment with head := p.ranks },
  .required "angle" decodeFloat fun segment angle => { segment with angle }]

def decode : Decoder Segment := decodeRecord fields ⟨Point.origin.ranks, Point.origin.ranks, 0⟩

def toDocument (segment : Segment) : Document := ofMembers [
  ("point_1", segment.first.toDocument),
  ("point_2", segment.second.toDocument),
  ("angle", ofFloat segment.angle)]

end Segment

namespace Building

def fields : List (Slot Building) := [
  .required "figure" Figure.decode fun building figure => { building with figure },
  .required "height" decodeFloat fun building height => { building with height },
  .required "min_height" decodeFloat fun building minHeight => { building with minHeight },
  .required "wall_color" Color.decode fun building wallColor => { building with wallColor },
  .required "wall_default_color" Color.decode
    fun building defaultWallColor => { building with defaultWallColor },
  .required "fill" Color.decode fun building fill => { building with fill },
  .required "stroke" Color.decode fun building stroke => { building with stroke },
  .required "default_fill" Color.decode fun building defaultFill => { building with defaultFill },
  .required "default_stroke" Color.decode
    fun building defaultStroke => { building with defaultStroke },
  .required "is_construction" decodeBool
    fun building isConstruction => { building with isConstruction },
  .required "has_walls" decodeBool fun building hasWalls => { building with hasWalls },
  .required "parts" (decodeList Segment.decode) fun building parts => { building with parts }]

def blank : Building := ofRings Table.empty [] [] {} {}

def decode : Decoder Building := decodeRecord fields blank

def toDocument (building : Building) : Document := ofMembers [
  ("figure", building.figure.toDocument),
  ("height", ofFloat building.height),
  ("min_height", ofFloat building.minHeight),
  ("wall_color", building.wallColor.toDocument),
  ("wall_default_color", building.defaultWallColor.toDocument),
  ("fill", building.fill.toDocument),
  ("stroke", building.stroke.toDocument),
  ("default_fill", building.defaultFill.toDocument),
  ("default_stroke", building.defaultStroke.toDocument),
  ("is_construction", .bool building.isConstruction),
  ("has_walls", .bool building.hasWalls),
  ("parts", ofList Segment.toDocument building.parts)]

end Building

end Cartograph

import Cartograph.Record.Figure
import Cartograph.Scene.Source

/-! Reading the sources of scenes. -/

namespace Cartograph.Source

open Document

def decodeLine : Decoder Line := decodeList Point.decodePair

def decodeLines : Decoder (List Line) := decodeList decodeLine

def boundsFields : List (Slot Bounds) := [
  .required "min" Point.decodePair fun bounds min => { bounds with min },
  .required "max" Point.decodePair fun bounds max => { bounds with max }]

def decodeBounds : Decoder Bounds := decodeRecord boundsFields ⟨Point.origin, Point.origin⟩

namespace Figure

def fields : List (Slot Figure) := [
  .optional "tags" Tags.decode fun figure tags => { figure with tags },
  .optional "inners" decodeLines fun figure inners => { figure with inners },
  .optional "outers" decodeLines fun figure outers => { figure with outers },
  .optional "style" Style.decode fun figure style => { figure with style },
  .optional "priority" decodeFloat fun figure priority => { figure with priority },
  .optional "parallel_offset" decodeFloat fun figure parallel => { figure with parallel }]

def decode : Decoder Figure := decodeRecord fields {}

end Figure

namespace Building

def fields : List (Slot Building) := [
  .optional "tags" Tags.decode fun building tags => { building with tags },
  .optional "inners" decodeLines fun building inners => { building with inners },
  .required "outers" decodeLines fun building outers => { building with outers }]

def decode : Decoder Building := decodeRecord fields { outers := [] }

end Building

namespace Road

def fields : List (Slot Road) := [
  .optional "tags" Tags.decode fun road tags => { road with tags },
  .required "points" decodeLine fun road points => { road with points },
  .optional "width" decodeFloat fun road width => { road with width },
  .optional "color" Color.decode fun road color => { road with color },
  .optional "border_color" (decodeOptional Color.decode) fun road border => { road with border },
  .optional "priority" decodeFloat fun road priority => { road with priority }]

def decode : Decoder Road := decodeRecord fields { points := [] }

end Road

namespace Node

def fields : List (Slot Node) := [
  .optional "tags" Tags.decode fun node tags => { node with tags },
  .required "point" Point.decodePair fun node point => { node with point }]

def decode : Decoder Node := decodeRecord fields { point := Point.origin }

end Node

namespace IconShape

def fields : List (Slot IconShape) := [
  .required "path" decodeText fun shape path => { shape with path },
  .optional "fill" Color.decode fun shape fill => { shape with fill }]

def decode : Decoder IconShape := decodeRecord fields { path := "" }

end IconShape

namespace Icon

def fields : List (Slot Icon) := [
  .optional "shapes" (decodeList IconShape.decode) fun icon shapes => { icon with shapes },
  .optional "is_default" decodeBool fun icon isDefault => { icon with isDefault }]

def decode : Decoder Icon := decodeRecord fields {}

end Icon

namespace Label

def fields : List (Slot Label) := [
  .required "text" decodeText fun label text => { label with text },
  .optional "fill" (decodeOptional Color.decode) fun label fill => { label with fill },
  .optional "size" decodeFloat fun label size => { label with size },
  .optional "out_fill" (decodeOptional Color.decode) fun label outFill => { label with outFill }]

def decode : Decoder Label := decodeRecord fields { text := "" }

end Label

namespace Feature

def fields : List (Slot Feature) := [
  .optional "tags" Tags.decode fun feature tags => { feature with tags },
  .optional "processed" (decodeList decodeText)
    fun feature processed => { feature with processed },
  .required "point" Point.decodePair fun feature point => { feature with point },
  .optional "icon" Icon.decode fun feature icon => { feature with icon },
  .optional "extra_icons" (decodeList Icon.decode)
    fun feature extraIcons => { feature with extraIcons },
  .optional "default_icon" (decodeOptional Icon.decode)
    fun feature defaultIcon => { feature with defaultIcon },
  .optional "labels" (decodeList Label.decode) fun feature labels => { feature with labels },
  .optional "priority" decodeFloat fun feature priority => { feature with priority },
  .optional "is_for_node" decodeBool fun feature isForNode => { feature with isForNode },
  .optional "draw_outline" decodeBool fun feature isOutlined => { feature with isOutlined }]

def decode : Decoder Feature := decodeRecord fields { point := Point.origin }

end Feature

namespace Scene

def fields : List (Slot Scene) := [
  .required "bounds" decodeBounds fun scene bounds => { scene with bounds },
  .required "scale" decodeFloat fun scene scale => { scene with scale },
  .optional "figures" (decodeList Figure.decode) fun scene figures => { scene with figures },
  .optional "buildings" (decodeList Building.decode)
    fun scene buildings => { scene with buildings },
  .optional "roads" (decodeList Road.decode) fun scene roads => { scene with roads },
  .optional "trees" (decodeList Node.decode) fun scene trees => { scene with trees },
  .optional "craters" (decodeList Node.decode) fun scene craters => { scene with craters },
  .optional "directions" (decodeList Node.decode)
    fun scene directions => { scene with directions },
  .optional "points" (decodeList Feature.decode) fun scene points => { scene with points }]

def decode : Decoder Scene :=
  decodeRecord fields { bounds := ⟨Point.origin, Point.origin⟩, scale := 0 }

end Scene

end Cartograph.Source

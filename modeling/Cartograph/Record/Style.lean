import Cartograph.Color.Printer
import Cartograph.Color.Reader
import Cartograph.Document.Decoding
import Cartograph.Document.Printer
import Cartograph.Style

/-! Colors and styles as documents. A color is its text. -/

namespace Cartograph

open Document

namespace Color

def invalid (text : String) : String := "invalid color `" ++ text ++ "`"

def ofText? (text : String) : Except Fault Color :=
  match read? text with
  | some color => .ok color
  | none => .error (.rejected (invalid text))

def decode : Decoder Color := fun value => (decodeText value).bind ofText?

def toDocument (color : Color) : Document := Document.ofText color.text

end Color

namespace LineCap

def names : List (String × LineCap) := [("butt", .butt), ("round", .round), ("square", .square)]

def name : LineCap → String
  | .butt => "butt"
  | .round => "round"
  | .square => "square"

end LineCap

namespace LineJoin

def names : List (String × LineJoin) := [("miter", .miter), ("round", .round), ("bevel", .bevel)]

def name : LineJoin → String
  | .miter => "miter"
  | .round => "round"
  | .bevel => "bevel"

end LineJoin

namespace Style

def fields : List (Slot Style) := [
  .optional "fill" (decodeOptional Color.decode) fun style fill => { style with fill },
  .optional "stroke" (decodeOptional Color.decode) fun style stroke => { style with stroke },
  .optional "width" decodeFloat fun style width => { style with width },
  .optional "line_cap" (decodeWord LineCap.names) fun style lineCap => { style with lineCap },
  .optional "line_join" (decodeWord LineJoin.names) fun style lineJoin => { style with lineJoin },
  .optional "dash" (decodeList decodeFloat) fun style dash => { style with dash }]

def decode : Decoder Style := decodeRecord fields {}

def toDocument (style : Style) : Document := ofMembers [
  ("fill", ofOption Color.toDocument style.fill),
  ("stroke", ofOption Color.toDocument style.stroke),
  ("width", ofFloat style.width),
  ("line_cap", Document.ofText style.lineCap.name),
  ("line_join", Document.ofText style.lineJoin.name),
  ("dash", ofList ofFloat style.dash)]

end Style

namespace TextAnchor

def names : List (String × TextAnchor) :=
  [("start", .start), ("middle", .middle), ("end", .finish)]

def name : TextAnchor → String
  | .start => "start"
  | .middle => "middle"
  | .finish => "end"

end TextAnchor

namespace TextStyle

def fields : List (Slot TextStyle) := [
  .optional "size" decodeFloat fun style size => { style with size },
  .optional "fill" Color.decode fun style fill => { style with fill },
  .optional "stroke" (decodeOptional Color.decode) fun style stroke => { style with stroke },
  .optional "stroke_width" decodeFloat fun style strokeWidth => { style with strokeWidth },
  .optional "opacity" decodeFloat fun style opacity => { style with opacity },
  .optional "anchor" (decodeWord TextAnchor.names) fun style anchor => { style with anchor }]

def decode : Decoder TextStyle := decodeRecord fields {}

def toDocument (style : TextStyle) : Document := ofMembers [
  ("size", ofFloat style.size),
  ("fill", style.fill.toDocument),
  ("stroke", ofOption Color.toDocument style.stroke),
  ("stroke_width", ofFloat style.strokeWidth),
  ("opacity", ofFloat style.opacity),
  ("anchor", Document.ofText style.anchor.name)]

end TextStyle

end Cartograph

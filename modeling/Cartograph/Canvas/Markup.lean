import Cartograph.Canvas.PathData
import Cartograph.Canvas.Step
import Cartograph.Color.Printer

/-! Vector drawings: a document of SVG elements, one to a line, indented by two spaces for each
element around it. -/

namespace Cartograph

namespace Markup

structure Attribute where
  name : String
  /-- Written as it is, so without quotes, `<` and `&`. -/
  value : String

namespace Attribute

def number (name : String) (value : Float) : Attribute := ⟨name, Number.text value⟩

def written (pair : Attribute) : String := " " ++ pair.name ++ "=\"" ++ pair.value ++ "\""

/-- A color, and how much of it is seen where that is not all. -/
def paint (name : String) (color : Color) : List Attribute :=
  let alpha := Color.clampUnit color.alpha
  let hex : Attribute := ⟨name, color.hex⟩
  if alpha < 1 then [hex, number (name ++ "-opacity") alpha] else [hex]

def lineCap : LineCap → List Attribute
  | .butt => []
  | .round => [⟨"stroke-linecap", "round"⟩]
  | .square => [⟨"stroke-linecap", "square"⟩]

def lineJoin : LineJoin → List Attribute
  | .miter => []
  | .round => [⟨"stroke-linejoin", "round"⟩]
  | .bevel => [⟨"stroke-linejoin", "bevel"⟩]

def dash : List Float → List Attribute
  | [] => []
  | lengths => [⟨"stroke-dasharray", ",".intercalate (lengths.map Number.text)⟩]

/-- Without a stroke nothing is said about lines. -/
def ofStyle (style : Style) : List Attribute :=
  let fill := match style.fill with
    | some color => paint "fill" color
    | none => [⟨"fill", "none"⟩]
  let stroke := match style.stroke with
    | some color => paint "stroke" color ++ [number "stroke-width" style.width] ++
        lineCap style.lineCap ++ lineJoin style.lineJoin ++ dash style.dash
    | none => []
  fill ++ stroke

def anchorName : TextAnchor → String
  | .start => "start"
  | .middle => "middle"
  | .finish => "end"

/-- The outline of a text is painted under its glyphs. -/
def ofTextStyle (position : Point Float) (style : TextStyle) : List Attribute :=
  let place := [number "x" position.x, number "y" position.y, number "font-size" style.size,
    ⟨"text-anchor", anchorName style.anchor⟩]
  let stroke := match style.stroke with
    | some color => paint "stroke" color ++
        [number "stroke-width" style.strokeWidth, ⟨"paint-order", "stroke"⟩]
    | none => []
  let opacity :=
    if style.opacity < 1 then [number "opacity" (Number.positivePart style.opacity)] else []
  place ++ paint "fill" style.fill ++ stroke ++ opacity

end Attribute

inductive Element where
  | shape (attributes : List Attribute)
  /-- Content is escaped when it is written. -/
  | text (attributes : List Attribute) (content : String)
  | opening (name : String) (attributes : List Attribute)
  | closing (name : String)

def escape (c : Char) : List Char :=
  if c = '&' then "&amp;".toList
  else if c = '<' then "&lt;".toList
  else if c = '>' then "&gt;".toList
  else if c = '"' then "&quot;".toList
  else [c]

def escapeAll (text : String) : String := String.ofList (text.toList.flatMap escape)

namespace Element

def attributesText (attributes : List Attribute) : String :=
  String.join (attributes.map Attribute.written)

def written : Element → String
  | shape attributes => "<path" ++ attributesText attributes ++ "/>"
  | text attributes content =>
    "<text" ++ attributesText attributes ++ ">" ++ escapeAll content ++ "</text>"
  | opening name attributes => "<" ++ name ++ attributesText attributes ++ ">"
  | closing name => "</" ++ name ++ ">"

end Element

structure Line where
  depth : Nat
  element : Element

namespace Line

def text (line : Line) : String :=
  String.ofList (List.replicate (2 * line.depth) ' ') ++ line.element.written

end Line

end Markup

structure Markup where
  width : Float
  height : Float
  depth : Nat := 1
  lines : Array Markup.Line := #[]

namespace Markup

def push (markup : Markup) (element : Element) : Markup :=
  { markup with lines := markup.lines.push ⟨markup.depth, element⟩ }

/-- A shape that cannot be seen, or without data, leaves no element. -/
def paintPath (path : Path) (style : Style) (markup : Markup) : Markup :=
  let data := PathData.text path
  if style.isVisible && !data.isEmpty then
    markup.push (.shape (⟨"d", data⟩ :: Attribute.ofStyle style))
  else markup

def paintText (text : String) (position : Point Float) (style : TextStyle) (markup : Markup) :
    Markup :=
  markup.push (.text (Attribute.ofTextStyle position style) text)

def enter (opacity : Float) (markup : Markup) : Markup :=
  let opened := markup.push (.opening "g" [.number "opacity" (Color.clampUnit opacity)])
  { opened with depth := markup.depth + 1 }

/-- Lines always stay inside the root. -/
def leave (markup : Markup) : Markup :=
  { markup with depth := max (markup.depth - 1) 1 }.push (.closing "g")

instance : Canvas Markup := ⟨paintPath, paintText, enter, leave⟩

def root (width height : Float) : Element :=
  let width := Number.text width
  let height := Number.text height
  .opening "svg" [⟨"xmlns", "http://www.w3.org/2000/svg"⟩, ⟨"width", width⟩, ⟨"height", height⟩,
    ⟨"viewBox", "0 0 " ++ width ++ " " ++ height⟩]

def allLines (markup : Markup) : List Line :=
  ⟨0, root markup.width markup.height⟩ :: markup.lines.toList ++ [⟨0, .closing "svg"⟩]

def document (markup : Markup) : String :=
  String.join (markup.allLines.map fun line => line.text ++ "\n")

end Markup

end Cartograph

import Cartograph.Number.Rounding
import Cartograph.Number.Numeral
import Cartograph.Path.Shape
import Cartograph.Text.Pieces

/-! Directions of view. A heading is a number of degrees clockwise from north or a compass point;
a sector is a heading widened by an angle, or a range between two headings. -/

namespace Cartograph

def compassPoints : List String :=
  ["N", "NNE", "NE", "ENE", "E", "ESE", "SE", "SSE", "S", "SSW", "SW", "WSW", "W", "WNW", "NW",
   "NNW"]

def compassStep : Float := 22.5

def compassDegrees? (text : List Char) : Option Float :=
  (compassPoints.findIdx? (· == String.ofList (Text.upper text))).map fun index =>
    Float.ofNat index * compassStep

def headingDegrees? (text : List Char) : Option Float :=
  let text := Text.trim text
  ((Number.read? text).filter (·.isFinite)).orElse fun _ => compassDegrees? text

/-- North is up on the canvas, where y points down. -/
def headingOfDegrees (degrees : Float) : Point Float :=
  let angle := Path.radians degrees + -Path.quarterTurn
  ⟨angle.cos, angle.sin⟩

def heading? (text : List Char) : Option (Point Float) :=
  (headingDegrees? text).map headingOfDegrees

namespace Point

def rotate (p : Point Float) (angle : Float) : Point Float :=
  let sin := angle.sin
  let cos := angle.cos
  ⟨cos * p.x + sin * p.y, -sin * p.x + cos * p.y⟩

end Point

structure Sector where
  start : Point Float
  finish : Point Float
  main : Point Float

namespace Sector

/-- A given angle never makes a half sector narrower than this. -/
def smallestHalf : Float := Path.pi / 15

def defaultHalf : Float := Path.pi / 30

def halfOpening : Option Float → Float
  | some degrees => Number.greatest smallestHalf (Path.radians degrees / 2)
  | none => defaultHalf

def around (main : Point Float) (half : Float) : Sector :=
  ⟨main.rotate half, main.rotate (-half), main⟩

def between (start finish : Point Float) : Sector := ⟨start, finish, (start + finish) * 0.5⟩

/-- The ends of a range; a minus sign at the very beginning belongs to a number. -/
def range? (text : List Char) : Option (List Char × List Char) :=
  if text.head? = some '-' then none else Text.splitFirst? '-' text

def read? (text : List Char) (angle : Option Float) : Option Sector :=
  match range? text with
  | some (start, finish) => do
    let start ← heading? start
    let finish ← heading? finish
    return between start finish
  | none => (heading? text).map (around · (halfOpening angle))

/-- Parts that are no sector are left out. -/
def readAll (text : List Char) : List Sector :=
  (Text.pieces (· = ';') text).filterMap (read? · none)

/-- A wedge from the finish back to the start. -/
def path (sector : Sector) (center : Point Float) (radius : Float) : Path :=
  let start := sector.start.y.atan2 sector.start.x
  let finish := sector.finish.y.atan2 sector.finish.x
  Path.sector center radius finish (if finish < start then start - Path.fullTurn else start)

end Sector

end Cartograph

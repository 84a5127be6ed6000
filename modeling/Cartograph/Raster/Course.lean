import Cartograph.Raster.Contour

/-! Contours measured along their length, and the parts of them between two lengths. -/

namespace Cartograph

/-- Lines under way, the latest first, each with its latest point first. -/
abbrev Trail := List (List (Point Float32))

namespace Trail

def moveTo (trail : Trail) (p : Point Float32) : Trail := [p] :: trail

def lineTo (trail : Trail) (p : Point Float32) : Trail :=
  match trail with
  | [] => [[p]]
  | line :: earlier => (p :: line) :: earlier

def stay (trail : Trail) : Trail :=
  match trail with
  | (p :: line) :: earlier => (p :: p :: line) :: earlier
  | _ => trail

def contours (trail : Trail) : List Outline.Contour :=
  trail.reverse.map fun line => ⟨line.reverse, false⟩

end Trail

structure Stretch where
  first : Point Float32
  second : Point Float32
  start : Float32
  finish : Float32

namespace Stretch

def part (stretch : Stretch) (place : Float32) : Float32 :=
  (place - stretch.start) / (stretch.finish - stretch.start)

def draw (stretch : Stretch) (start finish : Float32) (trail : Trail) : Trail :=
  if start == finish then trail.stay
  else
    trail.lineTo
      (if finish == 1 then stretch.second else stretch.first.between stretch.second finish)

end Stretch

structure Course where
  stretches : List Stretch
  length : Float32
  isClosed : Bool

namespace Course

/-- Edges that do not add to the length are left out. `last` is where the latest stretch ended and
`before` the latest point; `home` is there for a closed contour. -/
def measure (home : Option (Point Float32)) (last before : Point Float32) (length : Float32) :
    List (Point Float32) → List Stretch × Float32
  | [] =>
    match home with
    | some first =>
      let reach := length + (first - last).singleLength
      (if length < reach then [⟨last, first, length, reach⟩] else [], reach)
    | none => ([], length)
  | p :: rest =>
    let reach := length + (p - before).singleLength
    if length < reach then
      let (later, total) := measure home p p reach rest
      (⟨last, p, length, reach⟩ :: later, total)
    else measure home last p reach rest

/-- Absent where the length is not finite. -/
def ofContour? (contour : Outline.Contour) : Option Course :=
  match contour.points with
  | [] => none
  | first :: rest =>
    let (stretches, length) :=
      measure (if contour.isClosed then some first else none) first first 0 rest
    if length.isFinite then some ⟨stretches, length, contour.isClosed⟩ else none

def drawTo (finish part : Float32) : List Stretch → Trail → Trail
  | [], trail => trail
  | stretch :: rest, trail =>
    if finish ≤ stretch.finish then stretch.draw part (stretch.part finish) trail
    else drawTo finish 0 rest (stretch.draw part 1 trail)

/-- Draws what lies between two lengths, after a move to its beginning where one is asked for. -/
def draw (course : Course) (start finish : Float32) (moves : Bool) (trail : Trail) : Trail :=
  let finish := if course.length < finish then course.length else finish
  if start ≤ finish then
    match course.stretches.dropWhile (·.finish < start) with
    | [] => trail
    | stretch :: rest =>
      let part := stretch.part start
      let trail :=
        if moves then trail.moveTo (stretch.first.between stretch.second part) else trail
      drawTo finish part (stretch :: rest) trail
  else trail

end Course

end Cartograph

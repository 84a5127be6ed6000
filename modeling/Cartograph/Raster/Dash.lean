import Cartograph.Raster.Course

/-! Dashed outlines. -/

namespace Cartograph

/-- The lengths of dashes and gaps in turn, an even number of them, and their sum. -/
structure Dash where
  lengths : List Float32
  period : Float32

namespace Dash

/-- An odd pattern is taken twice. Without any length, with a negative one or without a finite
positive sum there is no pattern. -/
def ofLengths? (dash : List Float) : Option Dash :=
  let lengths := dash.map Number.toSingle
  let lengths := if lengths.length % 2 = 1 then lengths ++ lengths else lengths
  let period := lengths.foldl (· + ·) 0
  if lengths ≠ [] && !lengths.any (· < 0) && 0 < period && period.isFinite then
    some ⟨lengths, period⟩
  else none

/-- Outlines with more dashes than this are not drawn. -/
def most : Nat := 1000000

def first (dash : Dash) : Float32 := dash.lengths.headD 0

structure Walk where
  place : Float32 := 0
  /-- The lengths of the pattern from here to its end. -/
  ahead : List Float32
  isDash : Bool := true
  skips : Bool
  drew : Bool := false
  trail : Trail

def Walk.step (dash : Dash) (course : Course) (walk : Walk) : Walk :=
  let length := walk.ahead.headD 0
  let draws := walk.isDash && !walk.skips
  { place := walk.place + length
    ahead := match walk.ahead with
      | _ :: next :: rest => next :: rest
      | _ => dash.lengths
    isDash := !walk.isDash
    skips := false
    drew := draws
    trail :=
      if draws then course.draw walk.place (walk.place + length) true walk.trail
      else walk.trail }

def Walk.finish (dash : Dash) (course : Course) : Nat → Walk → Walk
  | 0, walk => walk
  | fuel + 1, walk =>
    if walk.place < course.length then finish dash course fuel (walk.step dash course) else walk

/-- Each round of the pattern gets on by a good part of its period, so a course with few enough
dashes ends within this number of steps. -/
def fuel (dash : Dash) : Nat := 4 * most * dash.lengths.length

/-- On a closed course the first dash is drawn last, as the end of a dash that is under way. -/
def lay (dash : Dash) (course : Course) (trail : Trail) : Trail :=
  let start : Walk := { ahead := dash.lengths, skips := course.isClosed, trail }
  let walk := start.finish dash course dash.fuel
  if course.isClosed then course.draw 0 dash.first (!walk.drew) walk.trail else walk.trail

/-- A course without a finite length ends the drawing. -/
def layFrom (dash : Dash) (count : Float32) (trail : Trail) :
    List Outline.Contour → Option Trail
  | [] => some trail
  | contour :: rest =>
    match Course.ofContour? contour with
    | none => some trail
    | some course =>
      let pairs := Float32.ofNat (dash.lengths.length / 2)
      let count := count + course.length * pairs / dash.period
      if Float32.ofNat most < count then none else layFrom dash count (dash.lay course trail) rest

def contours? (dash : Dash) (contours : List Outline.Contour) : Option (List Outline.Contour) :=
  (dash.layFrom 0 [] contours).map Trail.contours

end Dash

end Cartograph

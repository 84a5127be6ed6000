import Cartograph.Figure.Ring
import Cartograph.Path.Shape

/-! Lines parallel to a line. Every edge is moved along its normal, and neighbouring edges are
joined where the lines through them meet. The unit vector of an edge is a parameter, since it
is the only part that is not arithmetic. -/

namespace Cartograph

namespace Offset

variable {α : Type} [Add α] [Sub α] [Mul α] [Neg α] [LE α] [DecidableLE α]

def thinAfter (tolerance : α) (kept : Point α) : List (Point α) → List (Point α)
  | [] => []
  | p :: rest =>
    if kept.near p tolerance then thinAfter tolerance kept rest
    else p :: thinAfter tolerance p rest

def thin (tolerance : α) : List (Point α) → List (Point α)
  | [] => []
  | p :: rest => p :: thinAfter tolerance p rest

def closes (tolerance : α) (points : List (Point α)) : Bool :=
  2 < points.length && match points.head?, points.getLast? with
    | some first, some last => first.near last tolerance
    | _, _ => false

/-- An edge without direction stays where it is. -/
def moveEdge [OfNat α 0] (unit? : Point α → Option (Point α)) (distance : α) :
    Point α × Point α → Point α × Point α
  | (p, q) =>
    let shift := ((unit? (q - p)).map Point.rightNormal).getD Point.origin * distance
    (p + shift, q + shift)

variable [LT α] [DecidableLT α]

def magnitudeBelow (x bound : α) : Bool := -bound < x && x < bound

def join [Div α] (tolerance : α) : (Point α × Point α) × (Point α × Point α) → Point α
  | ((p, p'), (q, q')) =>
    let r := p' - p
    let s := q' - q
    let denominator := r.cross s
    if magnitudeBelow denominator tolerance then q
    else p + r * ((q - p).cross s / denominator)

def joinOpen [Div α] (tolerance : α) (edges : List (Point α × Point α)) : List (Point α) :=
  match edges.head?, edges.getLast? with
  | some first, some last =>
    first.1 :: (Ring.steps edges).map (join tolerance) ++ [last.2]
  | _, _ => []

/-- The first joint, between the last edge and the first, comes again at the end. -/
def joinClosed [Div α] (tolerance : α) (edges : List (Point α × Point α)) : List (Point α) :=
  match edges.getLast? with
  | some last =>
    let joints := (Ring.steps (last :: edges)).map (join tolerance)
    joints ++ joints.take 1
  | none => []

/-- Absent for lines with fewer than two distinct points. -/
def line? [Div α] [OfNat α 0] (unit? : Point α → Option (Point α)) (tolerance : α)
    (points : List (Point α)) (distance : α) : Option (List (Point α)) :=
  let kept := thin tolerance points
  if closes tolerance kept then
    let loop := kept.dropLast
    some (joinClosed tolerance ((Ring.turns loop).map (moveEdge unit? distance)))
  else if kept.length < 2 then none
  else some (joinOpen tolerance ((Ring.steps kept).map (moveEdge unit? distance)))

end Offset

namespace Ring

def tolerance : Float := 1e-12

def offset? (points : Ring) (distance : Float) : Option Ring :=
  Offset.line? Point.unit? tolerance points distance

/-- The path of a ring moved by `shift` and then by a parallel offset. A ring that cannot be
offset keeps its place. -/
def path (ring : Ring) (shift : Point Float) (parallel : Float) : Path :=
  let moved := ring.map (· + shift)
  Path.polyline <|
    if Offset.magnitudeBelow parallel tolerance then moved
    else (offset? moved parallel).getD moved

end Ring

end Cartograph

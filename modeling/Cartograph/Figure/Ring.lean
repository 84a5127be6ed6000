import Cartograph.Geometry.Point

/-! Rings of points and the direction in which they turn. -/

namespace Cartograph

abbrev Ring := List (Point Float)

namespace Ring

variable {α : Type}

def steps {β : Type} : List β → List (β × β)
  | a :: b :: rest => (a, b) :: steps (b :: rest)
  | _ => []

/-- Neighbours around a loop; a single point is its own neighbour. -/
def turns {β : Type} : List β → List (β × β)
  | [] => []
  | first :: rest => steps (first :: rest ++ [first])

def areaTerm [Add α] [Sub α] [Mul α] : Point α × Point α → α
  | (p, q) => (q.x - p.x) * (q.y + p.y)

/-- Sums that start from minus zero are minus zero for no terms at all. -/
def sum [Add α] [Neg α] [OfNat α 0] (terms : List α) : α := terms.foldl (· + ·) (-0)

/-- Twice the enclosed area, positive for a ring that turns clockwise where y points up. -/
def signedAreaSum [Add α] [Sub α] [Mul α] [Neg α] [OfNat α 0] (ring : List (Point α)) : α :=
  sum ((turns ring).map areaTerm)

variable [Add α] [Sub α] [Mul α] [Neg α] [OfNat α 0] [LE α] [DecidableLE α]

/-- A ring without area counts as clockwise. -/
def isClockwise (ring : List (Point α)) : Bool := (0 : α) ≤ signedAreaSum ring

def clockwiseBy {β : Type} (place : β → Point α) (ring : List β) : List β :=
  if isClockwise (ring.map place) then ring else ring.reverse

def counterClockwiseBy {β : Type} (place : β → Point α) (ring : List β) : List β :=
  if isClockwise (ring.map place) then ring.reverse else ring

def clockwise (ring : List (Point α)) : List (Point α) := clockwiseBy id ring

def counterClockwise (ring : List (Point α)) : List (Point α) := counterClockwiseBy id ring

/-- Holes turn clockwise and boundaries the other way where a shape has both. -/
def normalizeBy {β : Type} (place : β → Point α) (inners outers : List (List β)) :
    List (List β) × List (List β) :=
  if inners.isEmpty || outers.isEmpty then (inners, outers)
  else (inners.map (clockwiseBy place), outers.map (counterClockwiseBy place))

def normalize (inners outers : List (List (Point α))) :
    List (List (Point α)) × List (List (Point α)) := normalizeBy id inners outers

end Ring

end Cartograph

import Cartograph.Figure.Ring
import Cartograph.Raster.Contour

/-! The parts of the plane that are painted. A region is made of pieces; a place belongs to it
if the contours of one of its pieces wind around the place. -/

namespace Cartograph

/-- Loops that are wound together. -/
abbrev Piece := List (List (Point Float32))

abbrev Region := List Piece

namespace Piece

def edges (piece : Piece) : List (Point Float32 × Point Float32) := piece.flatMap Ring.turns

end Piece

namespace Region

def crossing? (y : Float32) : Point Float32 × Point Float32 → Option (Float32 × Int)
  | (p, q) =>
    let place := fun _ : Unit => p.x + (y - p.y) * (q.x - p.x) / (q.y - p.y)
    if p.y ≤ y && y < q.y then some (place (), 1)
    else if q.y ≤ y && y < p.y then some (place (), -1)
    else none

def woundFrom (winding : Int) : List (Float32 × Int) → List (Float32 × Float32)
  | (start, direction) :: (finish, next) :: rest =>
    let here := winding + direction
    let spans := woundFrom here ((finish, next) :: rest)
    if here = 0 then spans else (start, finish) :: spans
  | _ => []

def spansOfPiece (y : Float32) (edges : List (Point Float32 × Point Float32)) :
    List (Float32 × Float32) :=
  woundFrom 0 ((edges.filterMap (crossing? y)).mergeSort fun a b => a.1 ≤ b.1)

def joinFrom (start finish : Float32) : List (Float32 × Float32) → List (Float32 × Float32)
  | [] => [(start, finish)]
  | (nextStart, nextFinish) :: rest =>
    if nextStart ≤ finish then
      joinFrom start (if finish < nextFinish then nextFinish else finish) rest
    else (start, finish) :: joinFrom nextStart nextFinish rest

/-- The spans of a horizontal line that lie inside of any of the pieces, which are given by
their edges. -/
def spans (pieces : List (List (Point Float32 × Point Float32))) (y : Float32) :
    List (Float32 × Float32) :=
  match (pieces.flatMap (spansOfPiece y)).mergeSort fun a b => a.1 ≤ b.1 with
  | [] => []
  | (start, finish) :: rest => joinFrom start finish rest

def covers (spans : List (Float32 × Float32)) (x : Float32) : Bool :=
  spans.any fun (start, finish) => start ≤ x && x < finish

end Region

end Cartograph

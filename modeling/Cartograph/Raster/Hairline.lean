import Cartograph.Raster.Extent
import Cartograph.Style

/-! Lines that are as wide as one pixel. Every edge is drawn by itself, and a cap only makes a line
longer. -/

namespace Cartograph.Hairline

open Outline (Contour)

abbrev Edge := Point Float32 × Point Float32

def reach : LineCap → Float32
  | .butt => 0
  | .square => 0.5
  | .round => 3.14159265358979323846 / 8

/-- Moves the first end away from the second, or aside where both lie at one place. -/
def extend (cap : LineCap) (aside : Float32) (p q : Point Float32) : Point Float32 :=
  p + (((p - q).singleUnit?).getD ⟨aside, 0⟩) * reach cap

def extendFirst (cap : LineCap) (edge : Edge) : Edge := (extend cap 1 edge.1 edge.2, edge.2)

def extendLast (cap : LineCap) (edge : Edge) : Edge := (edge.1, extend cap (-1) edge.2 edge.1)

def mapLast (f : Edge → Edge) : List Edge → List Edge
  | [] => []
  | [edge] => [f edge]
  | edge :: rest => edge :: mapLast f rest

def mapFirst (f : Edge → Edge) : List Edge → List Edge
  | [] => []
  | edge :: rest => f edge :: rest

/-- Lines with caps are made longer at both ends, closed ones as well; the edge that closes a line
joins the ends as they are then. A closed line without edges is an edge at one place. -/
def edges (cap : LineCap) (contour : Contour) : List Edge :=
  let capped := fun edges : List Edge =>
    if cap = .butt then edges else mapLast (extendLast cap) (mapFirst (extendFirst cap) edges)
  let line := capped (Ring.steps contour.points)
  if contour.isClosed then
    match line.head?, line.getLast?, contour.points with
    | some (first, _), some (_, last), _ => line ++ [(last, first)]
    | _, _, p :: _ => capped [(p, p)]
    | _, _, [] => []
  else line

/-- A line just outside of the upper or left edge of the image is drawn inside of it. -/
def inward (x : Float32) : Float32 := if -1 < x && x ≤ -0.5 then 0.5 else x

def bar (edge : Edge) : Region :=
  let (p, q) := edge
  match (q - p).singleUnit? with
  | none => []
  | some direction =>
    let side := direction.rightNormal * (0.5 : Float32)
    let (p, q) :=
      if p.y == q.y then ((⟨p.x, inward p.y⟩ : Point Float32), (⟨q.x, inward q.y⟩ : Point Float32))
      else if p.x == q.x then (⟨inward p.x, p.y⟩, ⟨inward q.x, q.y⟩)
      else (p, q)
    [[[p + side, q + side, q - side, p - side]]]

def isNear (image : Extent) (edge : Edge) : Bool :=
  let (p, q) := edge
  let margin : Point Float32 := ⟨1, 1⟩
  (Frame.ofPlaces? [p - margin, p + margin, q - margin, q + margin]).any (Extent.sees image)

/-- Nothing is drawn of contours and edges that lie apart from the image. -/
def shape? (cap : LineCap) (image : Extent) (contours : List Contour) : Option Shape := do
  let frame ← contours.foldl (fun frame contour => Frame.addAll frame contour.points) none
  let extent ← Extent.around? (if cap = .butt then 1 else 2) frame
  if extent.meets image then
    let bars := fun contour => ((edges cap contour).filter (isNear image)).flatMap bar
    some ⟨contours.flatMap bars, image⟩
  else none

end Cartograph.Hairline

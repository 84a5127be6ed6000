import Cartograph.Canvas.Outline

/-! Outlines as lines of points. -/

namespace Cartograph.Outline

/-- A curve is replaced by this many chords. -/
def chords : Nat := 16

def onCurve (p q r s : Point Float32) (t : Float32) : Point Float32 :=
  let u := 1 - t
  p * (u * u * u) + q * (3 * u * u * t) + r * (3 * u * t * t) + s * (t * t * t)

def flatten (p q r s : Point Float32) : List (Point Float32) :=
  (List.range chords).map fun i =>
    if i + 1 = chords then s else onCurve p q r s (Float32.ofNat (i + 1) / Float32.ofNat chords)

structure Contour where
  points : List (Point Float32)
  isClosed : Bool

/-- The points of the contour under way come latest first. -/
def contoursFrom (way : List (Point Float32)) : Outline → List Contour
  | [] => finish false
  | .move p :: rest => finish false ++ contoursFrom [p] rest
  | .line p :: rest => contoursFrom (p :: way) rest
  | .curve p q r :: rest =>
    contoursFrom ((flatten (way.headD Point.origin) p q r).reverse ++ way) rest
  | .close :: rest => finish true ++ contoursFrom [] rest
where
  finish (isClosed : Bool) : List Contour :=
    if way.isEmpty then [] else [⟨way.reverse, isClosed⟩]

def contours (outline : Outline) : List Contour := contoursFrom [] outline

end Cartograph.Outline

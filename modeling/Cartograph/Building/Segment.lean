import Cartograph.Geometry.Point
import Cartograph.Number.Rank
import Cartograph.Path.Shape

/-! Wall edges, lit by the direction in which they run, and their order from far to near. The
ends are kept as ranks, because the order looks at more than the numbers. -/

namespace Cartograph

namespace Point

def ranks (p : Point Float) : Point Number.Rank := ⟨.ofFloat p.x, .ofFloat p.y⟩

def floats (p : Point Number.Rank) : Point Float := ⟨p.x.toFloat, p.y.toFloat⟩

end Point

structure Segment where
  tail : Point Number.Rank
  head : Point Number.Rank
  /-- How much light the wall gets, from 0 to 1. -/
  angle : Float

namespace Segment

def first (segment : Segment) : Point Float := segment.tail.floats

def second (segment : Segment) : Point Float := segment.head.floats

/-- The angle between the edge, taken towards smaller x, and the y axis, as a part of a half
turn. -/
def illumination (first second : Point Float) : Float :=
  match (second - first).unit? with
  | some direction =>
    let leftward := if 0 < direction.x then -direction else direction
    (Number.clamp (leftward.dot ⟨0, 1⟩) (-1) 1).acos / Path.pi
  | none => 0

def between (tail head : Point Number.Rank) : Segment :=
  ⟨tail, head, illumination tail.floats head.floats⟩

def middle (segment : Segment) : Number.Rank := .middle segment.tail.y segment.head.y

def orderKey (segment : Segment) : List Number.Rank :=
  [segment.middle, segment.tail.x, segment.tail.y, segment.head.x, segment.head.y]

protected def compare (a b : Segment) : Ordering :=
  Number.Rank.compareAll a.orderKey b.orderKey

instance : BEq Segment := ⟨fun a b => a.compare b == .eq⟩

/-- The patterns by which segments are told apart in a set. -/
def identity (segment : Segment) : List UInt64 :=
  [segment.tail.x.bits, segment.tail.y.bits, segment.head.x.bits, segment.head.y.bits]

instance : Hashable Segment := ⟨fun segment => hash segment.identity⟩

def sort (segments : List Segment) : List Segment :=
  segments.mergeSort fun a b => (a.compare b).isLE

end Segment

end Cartograph

import Cartograph.Geometry.Point

/-! Places in single precision and the smallest frames around them. -/

namespace Cartograph

namespace Point

def toSingle (p : Point Float) : Point Float32 := ⟨Number.toSingle p.x, Number.toSingle p.y⟩

def ofSingle (p : Point Float32) : Point Float := ⟨Number.toDouble p.x, Number.toDouble p.y⟩

/-- The length, taken in double precision where the squares are too large. -/
def singleLength (p : Point Float32) : Float32 :=
  let square := p.dot p
  if square.isFinite then square.sqrt else Number.toSingle (ofSingle p).length

/-- The reciprocal of the length, rounded through double precision. Along an axis that is the
reciprocal in single precision. -/
def singleScale (p : Point Float32) : Float32 :=
  if p.x == 0 then 1 / p.y.abs
  else if p.y == 0 then 1 / p.x.abs
  else Number.toSingle (1 / (ofSingle p).length)

def singleUnit? (p : Point Float32) : Option (Point Float32) :=
  let unit := p * p.singleScale
  if unit.x.isFinite && unit.y.isFinite && !(unit.x == 0 && unit.y == 0) then some unit else none

def between (p q : Point Float32) (part : Float32) : Point Float32 := p + (q - p) * part

def isFinite (p : Point Float32) : Bool := p.x.isFinite && p.y.isFinite

end Point

structure Frame where
  low : Point Float32
  high : Point Float32
  isFinite : Bool

namespace Frame

def ofPlace (p : Point Float32) : Frame := ⟨p, p, p.isFinite⟩

def add (frame : Frame) (p : Point Float32) : Frame where
  low := ⟨if p.x < frame.low.x then p.x else frame.low.x,
    if p.y < frame.low.y then p.y else frame.low.y⟩
  high := ⟨if frame.high.x < p.x then p.x else frame.high.x,
    if frame.high.y < p.y then p.y else frame.high.y⟩
  isFinite := frame.isFinite && p.isFinite

def addAll (frame : Option Frame) (places : List (Point Float32)) : Option Frame :=
  places.foldl (fun frame p => some ((frame.map (·.add p)).getD (ofPlace p))) frame

def ofPlaces? (places : List (Point Float32)) : Option Frame := addAll none places

/-- The largest finite single-precision number. -/
def largestExtent : Float := 340282346638528859811704183484516925440

def isWithinReach (frame : Frame) : Bool :=
  frame.isFinite &&
    Number.toDouble frame.high.x - Number.toDouble frame.low.x < largestExtent &&
    Number.toDouble frame.high.y - Number.toDouble frame.low.y < largestExtent

end Frame

end Cartograph

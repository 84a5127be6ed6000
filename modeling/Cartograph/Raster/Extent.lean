import Cartograph.Raster.Region

/-! The pixels among which a shape is painted. They are counted in 32 bits, rows in quarters, so a
shape that reaches too far is seen in part or not at all. -/

namespace Cartograph

structure Extent where
  left : Int
  top : Int
  right : Int
  bottom : Int
  deriving DecidableEq, Repr

namespace Extent

/-- The largest pixel number that single precision can name. -/
def furthest : Int := (Number.twoTo 31 : Int) - 128

def toPixel (x : Float32) : Int := Number.wholePart (-furthest) furthest (Number.ofSingle x)

/-- Where a side begins and ends that goes from `low` to `high`. Its length is rounded before it is
added. -/
def side? (low high : Float32) : Option (Int × Int) :=
  let start := toPixel (Number.floorSingle low)
  let finish := start + max 1 (toPixel (Number.ceilingSingle (high - low)))
  if finish < (Number.twoTo 31 : Int) then some (start, finish) else none

def ofCorners? (low high : Point Float32) : Option Extent := do
  let (left, right) ← side? low.x high.x
  let (top, bottom) ← side? low.y high.y
  return ⟨left, top, right, bottom⟩

/-- Shapes that are thinner than this are not filled. -/
def thinnest : Float32 := 1 / 4096

def largestPlace : Float32 := 85070586659632214952926045871129231360

def isFillable (low high : Float32) : Bool :=
  thinnest < high - low && -largestPlace ≤ low && high ≤ largestPlace

def ofFilled? (frame : Frame) : Option Extent :=
  if isFillable frame.low.x frame.high.x && isFillable frame.low.y frame.high.y then
    ofCorners? ⟨Number.floorSingle frame.low.x, Number.floorSingle frame.low.y⟩
      ⟨Number.ceilingSingle frame.high.x, Number.ceilingSingle frame.high.y⟩
  else none

def around? (margin : Float32) (frame : Frame) : Option Extent :=
  ofCorners? ⟨frame.low.x - margin, frame.low.y - margin⟩
    ⟨frame.high.x + margin, frame.high.y + margin⟩

def ofSize (width height : Nat) : Extent := ⟨0, 0, width, height⟩

def meets (a b : Extent) : Bool :=
  max a.left b.left < min a.right b.right && max a.top b.top < min a.bottom b.bottom

def sees (extent : Extent) (frame : Frame) : Bool :=
  Float32.ofInt extent.left ≤ frame.high.x && frame.low.x ≤ Float32.ofInt extent.right &&
    Float32.ofInt extent.top ≤ frame.high.y && frame.low.y ≤ Float32.ofInt extent.bottom

def contains (a b : Extent) : Bool :=
  a.left ≤ b.left && a.top ≤ b.top && b.right ≤ a.right && b.bottom ≤ a.bottom

/-- A count of quarters as 32 bits keep it. -/
def quarters (row : Int) : Int := Number.word (4 * row)

def hasRow (extent image : Extent) (y : Nat) : Bool :=
  let start := quarters extent.top
  let finish := quarters extent.bottom
  let (start, finish) :=
    if image.contains extent then (start, finish)
    else (max start (4 * image.top), min finish (4 * image.bottom))
  extent.meets image && start ≤ 4 * (y : Int) && 4 * (y : Int) + 4 ≤ finish

def hasColumn (extent : Extent) (x : Nat) : Bool := extent.left ≤ x && (x : Int) < extent.right

end Extent

structure Shape where
  region : Region
  extent : Extent

namespace Outline

/-- What lies inside of the contours, the open ones closed by a straight line. -/
def interior? (outline : Outline) : Option Shape := do
  let frame ← Frame.ofPlaces? (outline.flatMap points)
  let extent ← Extent.ofFilled? frame
  return ⟨[outline.contours.map Contour.points], extent⟩

end Outline

end Cartograph

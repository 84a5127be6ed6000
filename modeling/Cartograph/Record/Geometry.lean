import Cartograph.Document.Decoding
import Cartograph.Document.Printer
import Cartograph.Geometry.Projection
import Cartograph.Number.Rank
import Cartograph.Path.Command

/-! Points, projections and paths as documents. -/

namespace Cartograph

open Document

namespace Point

def fields : List (Slot (Point Float)) := [
  .required "x" decodeFloat fun p x => { p with x },
  .required "y" decodeFloat fun p y => { p with y }]

def decode : Decoder (Point Float) := decodeRecord fields origin

def decodePair : Decoder (Point Float)
  | .list [x, y] => do
    let x ← decodeFloat x
    let y ← decodeFloat y
    return ⟨x, y⟩
  | _ => .error .malformed

def toDocument (p : Point Float) : Document := ofMembers [("x", ofFloat p.x), ("y", ofFloat p.y)]

end Point

namespace Bounds

def fields : List (Slot Bounds) := [
  .required "min" Point.decode fun bounds min => { bounds with min },
  .required "max" Point.decode fun bounds max => { bounds with max }]

def decode : Decoder Bounds := decodeRecord fields ⟨Point.origin, Point.origin⟩

def toDocument (bounds : Bounds) : Document :=
  ofMembers [("min", bounds.min.toDocument), ("max", bounds.max.toDocument)]

end Bounds

namespace Projection

def fields : List (Slot Projection) := [
  .required "bounds" Bounds.decode fun projection bounds => { projection with bounds },
  .required "scale" decodeFloat fun projection scale => { projection with scale }]

def decode : Decoder Projection := decodeRecord fields ⟨⟨Point.origin, Point.origin⟩, 0⟩

def toDocument (projection : Projection) : Document :=
  ofMembers [("bounds", projection.bounds.toDocument), ("scale", ofFloat projection.scale)]

end Projection

namespace Number.Rank

def decode : Decoder Rank := fun value => (decodeFloat value).map ofFloat

def toDocument (rank : Rank) : Document := Document.ofFloat rank.toFloat

end Number.Rank

namespace Mode

def decode : Decoder Mode := decodeWord [("Absolute", .absolute), ("Relative", .relative)]

def toDocument : Mode → Document
  | .absolute => ofText "Absolute"
  | .relative => ofText "Relative"

end Mode

namespace Command

def decodePoint (make : Point Float → Mode → Command Float) : Decoder (Command Float)
  | .list [p, mode] => do
    let p ← Point.decode p
    let mode ← Mode.decode mode
    return make p mode
  | _ => .error .malformed

def decodeCurve : Decoder (Command Float)
  | .list [p, q, r, mode] => do
    let p ← Point.decode p
    let q ← Point.decode q
    let r ← Point.decode r
    let mode ← Mode.decode mode
    return .curve p q r mode
  | _ => .error .malformed

def decodeNumber (make : Float → Mode → Command Float) : Decoder (Command Float)
  | .list [x, mode] => do
    let x ← decodeFloat x
    let mode ← Mode.decode mode
    return make x mode
  | _ => .error .malformed

def decode : Decoder (Command Float)
  | .record [(some "MoveTo", value)] => decodePoint .move value
  | .record [(some "LineTo", value)] => decodePoint .line value
  | .record [(some "CurveTo", value)] => decodeCurve value
  | .record [(some "Horizontal", value)] => decodeNumber .horizontal value
  | .record [(some "Vertical", value)] => decodeNumber .vertical value
  | value => decodeWord [("Close", .close)] value

def tagged (name : String) (values : List Document) : Document := ofMembers [(name, .list values)]

def toDocument : Command Float → Document
  | .move p mode => tagged "MoveTo" [p.toDocument, mode.toDocument]
  | .line p mode => tagged "LineTo" [p.toDocument, mode.toDocument]
  | .curve p q r mode =>
    tagged "CurveTo" [p.toDocument, q.toDocument, r.toDocument, mode.toDocument]
  | .horizontal x mode => tagged "Horizontal" [ofFloat x, mode.toDocument]
  | .vertical y mode => tagged "Vertical" [ofFloat y, mode.toDocument]
  | .close => ofText "Close"

end Command

namespace Path

def decode : Decoder Path := decodeList Command.decode

def toDocument (path : Path) : Document := ofList Command.toDocument path

end Path

end Cartograph

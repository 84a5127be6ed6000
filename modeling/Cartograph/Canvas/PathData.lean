import Cartograph.Path.Pen
import Cartograph.Path.Printer

/-! The path data of vector drawings. Its closing letter draws a line back to the latest move,
so it is written only where the pen already is at that place. -/

namespace Cartograph

namespace PathData

variable {α : Type} [BEq α]

/-- The events that are written, for a pen at `current` whose latest move went to `moved`. -/
def elementsFrom (moved current : Point α) : List (PenEvent α) → List (PenEvent α)
  | [] => []
  | .move p :: rest => .move p :: elementsFrom p p rest
  | .line p :: rest => .line p :: elementsFrom moved p rest
  | .curve p q r :: rest => .curve p q r :: elementsFrom moved r rest
  | .close :: rest =>
    if current != moved then elementsFrom moved current rest
    else .close :: elementsFrom moved current rest

def elements [Add α] [OfNat α 0] (path : List (Command α)) : List (PenEvent α) :=
  elementsFrom Point.origin Point.origin (Path.events path)

def elementText : PenEvent Float → String
  | .move p => "M " ++ p.text
  | .line p => "L " ++ p.text
  | .curve p q r => "C " ++ p.text ++ " " ++ q.text ++ " " ++ r.text
  | .close => "Z"

def text (path : Path) : String := " ".intercalate ((elements path).map elementText)

end PathData

end Cartograph

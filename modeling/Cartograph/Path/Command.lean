import Cartograph.Geometry.Point

/-! Paths as lists of drawing commands, absolute or relative to the pen. -/

namespace Cartograph

inductive Mode where
  | absolute
  | relative
  deriving DecidableEq, Repr

inductive Command (α : Type) where
  | move (target : Point α) (mode : Mode)
  | line (target : Point α) (mode : Mode)
  | curve (first second target : Point α) (mode : Mode)
  | horizontal (x : α) (mode : Mode)
  | vertical (y : α) (mode : Mode)
  | close
  deriving BEq, Repr

abbrev Path := List (Command Float)

namespace Command

/-- Relative operands already follow the pen, so only absolute ones are shifted. -/
def shift {α : Type} [Add α] (offset : Point α) : Command α → Command α
  | move p .absolute => move (p + offset) .absolute
  | line p .absolute => line (p + offset) .absolute
  | curve p q r .absolute => curve (p + offset) (q + offset) (r + offset) .absolute
  | horizontal x .absolute => horizontal (x + offset.x) .absolute
  | vertical y .absolute => vertical (y + offset.y) .absolute
  | other => other

end Command

namespace Path

def shift {α : Type} [Add α] (path : List (Command α)) (offset : Point α) :
    List (Command α) :=
  path.map (Command.shift offset)

end Path

end Cartograph

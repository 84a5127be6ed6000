import Cartograph.Path.Command

/-! The pen replays a path as absolute events. Drawing without an open subpath first opens one
where the pen is, and closing returns to where the open subpath began, which a later move
inside it does not change. -/

namespace Cartograph

inductive PenEvent (α : Type) where
  | move (target : Point α)
  | line (target : Point α)
  | curve (first second target : Point α)
  | close
  deriving BEq, Repr

namespace PenEvent

def endPoint? {α : Type} : PenEvent α → Option (Point α)
  | move p => some p
  | line p => some p
  | curve _ _ p => some p
  | close => none

end PenEvent

inductive Pen (α : Type) where
  | lifted (current : Point α)
  | drawing (start current : Point α)
  deriving Repr

namespace Pen

variable {α : Type}

def current : Pen α → Point α
  | lifted p => p
  | drawing _ p => p

def resolve [Add α] (pen : Pen α) (p : Point α) : Mode → Point α
  | .absolute => p
  | .relative => pen.current + p

def opening : Pen α → Point α × List (PenEvent α)
  | lifted p => (p, [.move p])
  | drawing start _ => (start, [])

def draw (pen : Pen α) (target : Point α) (event : PenEvent α) : Pen α × List (PenEvent α) :=
  let (start, opened) := pen.opening
  (drawing start target, opened ++ [event])

def lineTo (pen : Pen α) (target : Point α) : Pen α × List (PenEvent α) :=
  pen.draw target (.line target)

def moveTo (pen : Pen α) (target : Point α) : Pen α × List (PenEvent α) :=
  match pen with
  | lifted _ => (drawing target target, [.move target])
  | drawing start _ => (drawing start target, [.move target])

/-- Without an open subpath there is nothing to close. -/
def closed (pen : Pen α) : Pen α × List (PenEvent α) :=
  match pen with
  | lifted p => (lifted p, [])
  | drawing start _ => (lifted start, [.line start, .close])

variable [Add α] [OfNat α 0]

def step (pen : Pen α) : Command α → Pen α × List (PenEvent α)
  | .move p mode => pen.moveTo (pen.resolve p mode)
  | .line p mode => pen.lineTo (pen.resolve p mode)
  | .curve p q r mode =>
    let target := pen.resolve r mode
    pen.draw target (.curve (pen.resolve p mode) (pen.resolve q mode) target)
  | .horizontal x .absolute => pen.lineTo ⟨x, pen.current.y⟩
  | .horizontal x .relative => pen.lineTo (pen.current + ⟨x, 0⟩)
  | .vertical y .absolute => pen.lineTo ⟨pen.current.x, y⟩
  | .vertical y .relative => pen.lineTo (pen.current + ⟨0, y⟩)
  | .close => pen.closed

def run (pen : Pen α) : List (Command α) → List (PenEvent α)
  | [] => []
  | command :: rest =>
    let (next, events) := pen.step command
    events ++ next.run rest

end Pen

namespace Path

def events {α : Type} [Add α] [OfNat α 0] (path : List (Command α)) : List (PenEvent α) :=
  (Pen.lifted Point.origin).run path

end Path

end Cartograph

import Cartograph.Color.Basic

/-! How shapes and texts are painted. -/

namespace Cartograph

inductive LineCap where
  | butt
  | round
  | square
  deriving DecidableEq, Repr, Inhabited

inductive LineJoin where
  | miter
  | round
  | bevel
  deriving DecidableEq, Repr, Inhabited

/-- Without a fill or a stroke that part is not painted. -/
structure Style where
  fill : Option Color := none
  stroke : Option Color := none
  width : Float := 1
  lineCap : LineCap := .butt
  lineJoin : LineJoin := .miter
  /-- Lengths of dashes and gaps in turn; none for a solid line. -/
  dash : List Float := []

namespace Style

def isVisible (style : Style) : Bool := style.fill.isSome || style.stroke.isSome

def filled (color : Color) : Style := { fill := some color }

end Style

inductive TextAnchor where
  | start
  | middle
  | finish
  deriving DecidableEq, Repr, Inhabited

structure TextStyle where
  size : Float := 10
  fill : Color := Color.black
  /-- The outline, painted under the glyphs. -/
  stroke : Option Color := none
  strokeWidth : Float := 1
  opacity : Float := 1
  anchor : TextAnchor := .middle

end Cartograph

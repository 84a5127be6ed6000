import Cartograph.Canvas.Frame
import Cartograph.Path.Pen

/-! Outlines for painting pixels: contours in single precision, built call by call. A move that
follows a move replaces it, and drawing after a close starts again where the contour began. -/

namespace Cartograph

abbrev Outline := List (PenEvent Float32)

namespace Outline

structure Builder where
  parts : Outline
  start : Point Float32
  needsMove : Bool

namespace Builder

def empty : Builder := ⟨[], Point.origin, true⟩

def moveTo (builder : Builder) (p : Point Float32) : Builder :=
  match builder.parts with
  | .move _ :: earlier => ⟨.move p :: earlier, p, builder.needsMove⟩
  | parts => ⟨.move p :: parts, p, false⟩

def opened (builder : Builder) : Builder :=
  if builder.needsMove then builder.moveTo builder.start else builder

def lineTo (builder : Builder) (p : Point Float32) : Builder :=
  let builder := builder.opened
  { builder with parts := .line p :: builder.parts }

def curveTo (builder : Builder) (p q r : Point Float32) : Builder :=
  let builder := builder.opened
  { builder with parts := .curve p q r :: builder.parts }

def close (builder : Builder) : Builder :=
  match builder.parts with
  | [] => { builder with needsMove := true }
  | .close :: _ => { builder with needsMove := true }
  | parts => { builder with parts := .close :: parts, needsMove := true }

end Builder

structure Tracer where
  builder : Builder
  moved : Point Float
  current : Point Float

namespace Tracer

def start : Tracer := ⟨.empty, Point.origin, Point.origin⟩

/-- A contour is closed only when that adds no edge. -/
def event (tracer : Tracer) : PenEvent Float → Tracer
  | .move p => ⟨tracer.builder.moveTo p.toSingle, p, p⟩
  | .line p => ⟨tracer.builder.lineTo p.toSingle, tracer.moved, p⟩
  | .curve p q r =>
    ⟨tracer.builder.curveTo p.toSingle q.toSingle r.toSingle, tracer.moved, r⟩
  | .close =>
    if tracer.current == tracer.moved then { tracer with builder := tracer.builder.close }
    else tracer

end Tracer

def points : PenEvent Float32 → List (Point Float32)
  | .move p => [p]
  | .line p => [p]
  | .curve p q r => [p, q, r]
  | .close => []

/-- Nothing can be painted of a single part, or of coordinates out of range. -/
def finish (builder : Builder) : Option Outline :=
  let outline := builder.parts.reverse
  match Frame.ofPlaces? (outline.flatMap points) with
  | some frame => if 2 ≤ outline.length && frame.isWithinReach then some outline else none
  | none => none

def ofPath? (path : Path) : Option Outline :=
  finish ((Path.events path).foldl Tracer.event Tracer.start).builder

end Outline

end Cartograph

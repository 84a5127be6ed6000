import Cartograph.Path.Reader
import Cartograph.Path.Shape
import Cartograph.Style

/-! Drawings as data. A step paints a shape or a text, or collects further steps into a group;
what a step does to a surface is up to the surface. Every group is closed, also when one of its
steps fails. -/

namespace Cartograph

class Canvas (σ : Type) where
  paintPath : Path → Style → σ → σ
  paintText : String → Point Float → TextStyle → σ → σ
  /-- Opens a group that is painted with this opacity as a whole. -/
  enter : Float → σ → σ
  leave : σ → σ

inductive Step (ε : Type) where
  | shape (path : Path) (style : Style)
  /-- The position is that of the anchor on the base line. -/
  | label (text : String) (position : Point Float) (style : TextStyle)
  | group (opacity : Float) (steps : List (Step ε))
  | leave
  | fail (reason : ε)

structure Drawn (σ ε : Type) where
  surface : σ
  failure : Option ε

namespace Step

variable {σ ε : Type}

def polyline (points : List (Point Float)) (style : Style) : Step ε :=
  shape (Path.polyline points) style

def rectangle (corner opposite : Point Float) (style : Style) : Step ε :=
  polyline [corner, ⟨opposite.x, corner.y⟩, opposite, ⟨corner.x, opposite.y⟩, corner] style

def text (text : String) (position : Point Float) (color : Color) : Step ε :=
  label text position { fill := color }

def written (text : String) (style : Style) : Step Path.Fault :=
  match Path.read text with
  | .ok path => shape path style
  | .error fault => fail fault

mutual

/-- An empty text paints nothing. -/
def run [Canvas σ] (surface : σ) : Step ε → Drawn σ ε
  | shape path style => ⟨Canvas.paintPath path style surface, none⟩
  | label text position style =>
    if text.isEmpty then ⟨surface, none⟩
    else ⟨Canvas.paintText text position style surface, none⟩
  | group opacity steps =>
    let drawn := runAll (Canvas.enter opacity surface) steps
    ⟨Canvas.leave drawn.surface, drawn.failure⟩
  | leave => ⟨Canvas.leave surface, none⟩
  | fail reason => ⟨surface, some reason⟩

/-- The first step that fails is the last one carried out. -/
def runAll [Canvas σ] (surface : σ) : List (Step ε) → Drawn σ ε
  | [] => ⟨surface, none⟩
  | step :: rest =>
    let drawn := run surface step
    match drawn.failure with
    | none => runAll drawn.surface rest
    | some _ => drawn

end

end Step

end Cartograph

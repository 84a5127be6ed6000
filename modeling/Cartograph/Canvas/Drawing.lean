import Cartograph.Canvas.Markup
import Cartograph.Raster.Basic

/-! Drawings of either kind, chosen when an image is begun. -/

namespace Cartograph

inductive Drawing where
  | vector (markup : Markup)
  | raster (raster : Raster)

namespace Drawing

def ofSize (width height : Float) : Drawing := vector { width, height }

def map (onVector : Markup → Markup) (onRaster : Raster → Raster) : Drawing → Drawing
  | vector markup => vector (onVector markup)
  | raster image => raster (onRaster image)

instance : Canvas Drawing where
  paintPath path style := map (Canvas.paintPath path style) (Canvas.paintPath path style)
  paintText text position style :=
    map (Canvas.paintText text position style) (Canvas.paintText text position style)
  enter opacity := map (Canvas.enter opacity) (Canvas.enter opacity)
  leave := map Canvas.leave Canvas.leave

def isLost : Drawing → Bool
  | vector _ => false
  | raster image => image.isLost

def kind : Drawing → String
  | vector _ => "Vector"
  | raster _ => "Raster"

def size : Drawing → Point Float
  | vector markup => ⟨markup.width, markup.height⟩
  | raster image => ⟨Float.ofNat image.width, Float.ofNat image.height⟩

def description (drawing : Drawing) : String :=
  let number := Number.Notation.descriptive.write
  "Drawing \x7b kind: \"" ++ drawing.kind ++ "\", width: " ++ number drawing.size.x ++
    ", height: " ++ number drawing.size.y ++ " \x7d"

end Drawing

end Cartograph

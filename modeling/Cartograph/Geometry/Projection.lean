import Cartograph.Geometry.Point

/-! The planar projection of map coordinates, with y pointing up, onto a canvas, with y
pointing down. -/

namespace Cartograph

structure Bounds where
  min : Point Float
  max : Point Float

namespace Bounds

/-- Reversed corners give the width 0. -/
def width (bounds : Bounds) : Float := Number.positivePart (bounds.max.x - bounds.min.x)

def height (bounds : Bounds) : Float := Number.positivePart (bounds.max.y - bounds.min.y)

end Bounds

structure Projection where
  bounds : Bounds
  /-- Canvas units per map unit. -/
  scale : Float

namespace Projection

def project (projection : Projection) (p : Point Float) : Point Float :=
  ⟨(p.x - projection.bounds.min.x) * projection.scale,
   (projection.bounds.max.y - p.y) * projection.scale⟩

def size (projection : Projection) : Point Float :=
  ⟨projection.bounds.width * projection.scale, projection.bounds.height * projection.scale⟩

end Projection

end Cartograph

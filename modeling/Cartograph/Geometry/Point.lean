import Cartograph.Number.Rounding

/-! Points of the plane, which are also its vectors. Operations that use only arithmetic work
over any kind of coordinate. -/

namespace Cartograph

structure Point (α : Type) where
  x : α
  y : α
  deriving BEq, Repr

namespace Point

variable {α : Type}

instance [Add α] : Add (Point α) := ⟨fun p q => ⟨p.x + q.x, p.y + q.y⟩⟩

instance [Sub α] : Sub (Point α) := ⟨fun p q => ⟨p.x - q.x, p.y - q.y⟩⟩

instance [Neg α] : Neg (Point α) := ⟨fun p => ⟨-p.x, -p.y⟩⟩

instance [Mul α] : HMul (Point α) α (Point α) := ⟨fun p k => ⟨p.x * k, p.y * k⟩⟩

def origin [OfNat α 0] : Point α := ⟨0, 0⟩

instance [OfNat α 0] : Inhabited (Point α) := ⟨origin⟩

def dot [Add α] [Mul α] (p q : Point α) : α := p.x * q.x + p.y * q.y

def cross [Sub α] [Mul α] (p q : Point α) : α := p.x * q.y - p.y * q.x

/-- A quarter turn to the right where y points up. -/
def rightNormal [Neg α] (p : Point α) : Point α := ⟨p.y, -p.x⟩

def magnitudeWithin [Neg α] [LE α] [DecidableLE α] (x bound : α) : Bool :=
  -bound ≤ x && x ≤ bound

def near [Sub α] [Neg α] [LE α] [DecidableLE α] (p q : Point α) (tolerance : α) : Bool :=
  magnitudeWithin (p.x - q.x) tolerance && magnitudeWithin (p.y - q.y) tolerance

def length (p : Point Float) : Float := (p.dot p).sqrt

def unit? (p : Point Float) : Option (Point Float) :=
  let size := p.length
  if 0 < size && size.isFinite then some ⟨p.x / size, p.y / size⟩ else none

def truncate (p : Point Float) : Point Float := ⟨Number.truncate p.x, Number.truncate p.y⟩

end Point

end Cartograph

import Cartograph.Geometry.Point

/-! Masks that say how much of each pixel is covered, from 0 to 255. -/

namespace Cartograph

/-- Only the values of places inside of the mask count. -/
structure Coverage where
  width : Nat
  height : Nat
  value : Nat → Nat → Nat

namespace Coverage

def empty : Coverage := ⟨0, 0, fun _ _ => 0⟩

def ofCells (width height : Nat) (cells : Array Nat) : Coverage :=
  ⟨width, height, fun x y => cells.getD (y * width + x) 0⟩

/-- Absent outside of the mask. -/
def at? (mask : Coverage) (x y : Int) : Option Nat :=
  if 0 ≤ x ∧ x < mask.width ∧ 0 ≤ y ∧ y < mask.height then some (mask.value x.toNat y.toNat)
  else none

structure Spot where
  x : Int
  y : Int
  value : Nat

def spots (mask : Coverage) : List Spot :=
  let spot := fun y x : Nat => (⟨x, y, mask.value x y⟩ : Spot)
  (List.range mask.height).flatMap fun y =>
    ((List.range mask.width).map (spot y)).filter (0 < ·.value)

/-- The steps from the center of a disc to its places, row after row. -/
def disc (radius : Nat) : List (Point Int) :=
  let reach := (List.range (2 * radius + 1)).map fun i : Nat => (i : Int) - radius
  (reach.flatMap fun y => reach.map fun x => ⟨x, y⟩).filter fun step =>
    step.x * step.x + step.y * step.y ≤ (radius : Int) * radius

/-- Raises a value to `value` at least. Absent where there is no such value. -/
def raise? (index value : Nat) (cells : Array Nat) : Option (Array Nat) :=
  if inside : index < cells.size then some (cells.set index (max cells[index] value)) else none

/-- Raises the value of the place that a step from a spot leads to. The values stand row after row,
and their rows and columns begin `radius` before those of the spots. -/
def Spot.mark? (spot : Spot) (radius width : Nat) (cells : Array Nat) (step : Point Int) :
    Option (Array Nat) := do
  let x ← (spot.x + radius + step.x).toNat?
  let y ← (spot.y + radius + step.y).toNat?
  raise? (y * width + x) spot.value cells

/-- The mask grown by `radius` on every side: each spot is written to the places of the disc around
it, and the largest value stays. Absent where a place lies outside of the grown mask. -/
def grow? (mask : Coverage) (radius : Nat) : Option Coverage :=
  if radius = 0 then some mask
  else
    let width := mask.width + 2 * radius
    let height := mask.height + 2 * radius
    let disc := disc radius
    let cells := mask.spots.foldlM (fun cells spot => disc.foldlM (spot.mark? radius width) cells)
      (Array.replicate (width * height) 0)
    cells.map (ofCells width height)

def dilate (mask : Coverage) (radius : Nat) : Coverage := (mask.grow? radius).getD mask

end Coverage

end Cartograph

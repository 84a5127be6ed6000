import Cartograph.Canvas.Step

/-! The grid of canvas cells that icons and labels reserve, and attempts to place an item on it.
An item is painted only if every cell that it probes is still free; it then reserves its area. -/

namespace Cartograph

abbrev Cell := Point Int

namespace Point

/-- The cell of a position; coordinates are cut, so a cell next to an axis is twice as wide. -/
def cell (p : Point Float) : Cell := ⟨Number.toCell p.x, Number.toCell p.y⟩

end Point

structure Area where
  columns : List Int
  rows : List Int
  deriving DecidableEq, Repr

namespace Area

def contains (area : Area) (cell : Cell) : Bool :=
  area.columns.contains cell.x && area.rows.contains cell.y

def span (low high : Int) : List Int := (List.range (high - low).toNat).map fun (i : Nat) => low + i

def single (cell : Cell) : Area := ⟨[cell.x], [cell.y]⟩

/-- Its center belongs to the lower right quarter. -/
def square (center : Cell) (reach : Int) : Area :=
  ⟨span (center.x - reach) (center.x + reach), span (center.y - reach) (center.y + reach)⟩

end Area

structure Grid where
  width : Nat
  height : Nat
  /-- Half the side of the square that an icon reserves. -/
  overlap : Nat
  reserved : List Area := []

namespace Grid

/-- Cells are counted in 63 bits; a side that takes more holds none. -/
def side (length : Float) : Nat :=
  let count := Number.toCount (Number.positivePart length)
  if count < Number.twoTo 63 then count else 0

def ofSize (width height : Float) (overlap : Nat) : Grid := ⟨side width, side height, overlap, []⟩

def inside (grid : Grid) (cell : Cell) : Bool :=
  0 ≤ cell.x && cell.x < grid.width && 0 ≤ cell.y && cell.y < grid.height

/-- What lies outside counts as taken. -/
def isTaken (grid : Grid) (cell : Cell) : Bool :=
  !grid.inside cell || grid.reserved.any (·.contains cell)

def reserve (grid : Grid) (area : Area) : Grid := { grid with reserved := area :: grid.reserved }

/-- An overlap of 63 bits or more reserves nothing. -/
def reach (grid : Grid) : Int := if grid.overlap < Number.twoTo 63 then grid.overlap else 0

end Grid

abbrev Board := Option Grid

structure Claim where
  probes : List Cell
  area : Area

inductive Event where
  | painted (claim : Claim) (steps : List (Step Empty))
  /-- Something else is drawn in its place, which reserves nothing. -/
  | replaced (steps : List (Step Empty))
  | hidden

namespace Event

def isPainted : Event → Bool
  | painted _ _ => true
  | replaced _ | hidden => false

def steps : Event → List (Step Empty)
  | painted _ steps => steps
  | replaced steps => steps
  | hidden => []

end Event

namespace Board

def isTaken (board : Board) (cell : Cell) : Bool := board.any (·.isTaken cell)

/-- The claim is worked out only where there is a grid. -/
def attempt (board : Board) (claim : Grid → Claim) (steps : List (Step Empty))
    (substitute : Option (List (Step Empty))) : Event :=
  match board with
  | none => .painted ⟨[], ⟨[], []⟩⟩ steps
  | some grid =>
    let claim := claim grid
    if claim.probes.any grid.isTaken then
      match substitute with
      | some steps => .replaced steps
      | none => .hidden
    else .painted claim steps

def after (board : Board) : Event → Board
  | .painted claim _ => board.map (·.reserve claim.area)
  | .replaced _ | .hidden => board

def afterAll (board : Board) (events : List Event) : Board := events.foldl after board

end Board

end Cartograph

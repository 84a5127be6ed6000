import Cartograph.Scene.Basic

/-! Placing the point features of a scene, from the highest priority down: first all main icons,
then the extra icons, then the labels. -/

namespace Cartograph

structure Pass where
  cursors : List (Feature × Cursor)
  events : List Event
  board : Board

namespace Pass

/-- Every feature finds the grid as the ones before it left it. -/
def run (place : Feature → Cursor → Board → Placed) (board : Board) :
    List (Feature × Cursor) → Pass
  | [] => ⟨[], [], board⟩
  | (feature, cursor) :: rest =>
    let placed := place feature cursor board
    let later := run place (board.afterAll placed.events) rest
    ⟨(feature, placed.cursor) :: later.cursors, placed.events ++ later.events, later.board⟩

end Pass

namespace Features

/-- Without an overlap there is no grid. -/
def board (size : Point Float) (overlap : Nat) : Board :=
  if 0 < overlap then some (Grid.ofSize size.x size.y overlap) else none

def events (mode : LabelMode) (features : List Feature) (board : Board) : List Event :=
  let cursors := (Feature.sort features).map fun feature => (feature, ({} : Cursor))
  let mains := Pass.run Feature.placeMain board cursors
  let extras := Pass.run Feature.placeExtras mains.board mains.cursors
  let texts := Pass.run (Feature.placeTexts · mode) extras.board extras.cursors
  mains.events ++ extras.events ++ texts.events

def steps (configuration : Configuration) (size : Point Float) (features : List Feature) :
    List (Step Empty) :=
  (events configuration.labelMode features (board size configuration.overlap)).flatMap Event.steps

end Features

end Cartograph

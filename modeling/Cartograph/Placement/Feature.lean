import Cartograph.Configuration
import Cartograph.Number.Rank
import Cartograph.Placement.Grid
import Cartograph.Placement.Icon
import Cartograph.Placement.Label

/-! Point features: icons and labels stacked under a node. -/

namespace Cartograph

structure Feature where
  tags : Tags
  /-- The tags that the icons already express. -/
  processed : List String
  mainIcon : Icon
  extraIcons : List Icon
  /-- Drawn where the place of the main icon is taken. -/
  defaultIcon : Option Icon
  labels : List Label
  point : Point Float
  priority : Number.Rank
  isForNode : Bool
  isOutlined : Bool

/-- How far a feature is laid out, from its point downwards. -/
structure Cursor where
  y : Float := 0
  isMainPainted : Bool := false

structure Placed where
  cursor : Cursor
  events : List Event

namespace Feature

def iconEvent (feature : Feature) (board : Board) (icon : Icon) (substitute : Option Icon)
    (position : Point Float) : Event :=
  let position := position.truncate
  let cell := position.cell
  board.attempt (fun grid => ⟨[cell], Area.square cell grid.reach⟩)
    (icon.steps position feature.isOutlined)
    (substitute.map fun icon => icon.steps position feature.isOutlined)

/-- A default icon says nothing where all tags are expressed, or where there is no node. -/
def isMute (feature : Feature) : Bool :=
  feature.mainIcon.isDefault && feature.extraIcons.isEmpty &&
    (feature.tags.names.all feature.processed.contains || !feature.isForNode)

def placeMain (feature : Feature) (cursor : Cursor) (board : Board) : Placed :=
  if feature.isMute then ⟨cursor, []⟩
  else
    let event := feature.iconEvent board feature.mainIcon feature.defaultIcon
      (feature.point + ⟨0, cursor.y⟩)
    let y := if event.isPainted then cursor.y + Icon.side else cursor.y
    ⟨⟨y, event.isPainted⟩, [event]⟩

def iconsFrom (left : Float) : List Icon → List (Float × Icon)
  | [] => []
  | icon :: rest => (left, icon) :: iconsFrom (left + Icon.side) rest

def extraRow (feature : Feature) : List (Float × Icon) :=
  iconsFrom (-(Float.ofNat feature.extraIcons.length - 1) * Icon.side / 2) feature.extraIcons

def extraEvents (feature : Feature) (y : Float) (board : Board) :
    List (Float × Icon) → List Event
  | [] => []
  | (left, icon) :: rest =>
    let event := feature.iconEvent board icon none (feature.point + ⟨left, y⟩)
    event :: feature.extraEvents y (board.after event) rest

/-- Extra icons need a main icon over them and free cells for all of them. -/
def placeExtras (feature : Feature) (cursor : Cursor) (board : Board) : Placed :=
  let row := feature.extraRow
  let isBlocked := row.any fun (left, _) =>
    board.isTaken (feature.point + (⟨left, cursor.y⟩ : Point Float)).cell
  if feature.extraIcons.isEmpty || !cursor.isMainPainted || isBlocked then ⟨cursor, []⟩
  else ⟨{ cursor with y := cursor.y + Icon.side }, feature.extraEvents cursor.y board row⟩

def labelStep : Float := 11

/-- Every character is taken to be six cells wide. -/
def textClaim (text : String) (position : Point Float) : Claim :=
  let half : Int := text.length * 3
  let columns := (Area.span (-half) half).map fun i => Number.toCell (position.x + Float.ofInt i)
  let rows := (Area.span (-12) 5).map fun j => Number.toCell (position.y + Float.ofInt j)
  let baseline := Number.toCell (position.y - 4)
  ⟨columns.map fun column => ⟨column, baseline⟩, ⟨columns, rows⟩⟩

/-- A label that finds no place leaves no gap. -/
def labelEvents (feature : Feature) (y : Float) (board : Board) :
    List Label → Float × List Event
  | [] => (y, [])
  | label :: rest =>
    let position := feature.point + ⟨0, y + 2⟩
    let event := board.attempt (fun _ => textClaim label.shown position) (label.steps position) none
    let next := if event.isPainted then y + labelStep else y
    let (last, events) := feature.labelEvents next (board.after event) rest
    (last, event :: events)

def shownLabels (feature : Feature) : LabelMode → List Label
  | .no => []
  | .main => feature.labels.take 1
  | .all => feature.labels

def placeTexts (feature : Feature) (mode : LabelMode) (cursor : Cursor) (board : Board) : Placed :=
  let (y, events) := feature.labelEvents cursor.y board (feature.shownLabels mode)
  ⟨{ cursor with y }, events⟩

end Feature

end Cartograph

import Cartograph.Canvas.Step
import Cartograph.Number.Notation
import Cartograph.Raster.Font
import Cartograph.Raster.Pixel
import Cartograph.Raster.Stroke

/-! Raster drawings. A pixel is painted where its center lies in the region of a shape. A group
is painted on a layer of its own, which is laid over the layer below when the group ends. -/

namespace Cartograph

structure Layer where
  width : Nat
  height : Nat
  /-- From the top down, each row from the left. -/
  rows : Array (Array Pixel)
  row_count : rows.size = height
  row_size : ∀ (y : Nat) (row : Array Pixel), rows[y]? = some row → row.size = width

namespace Layer

def blank (width height : Nat) : Layer where
  width
  height
  rows := Array.replicate height (Array.replicate width Pixel.transparent)
  row_count := Array.size_replicate
  row_size := by
    intro y row found
    rw [Array.getElem?_replicate] at found
    split at found
    · rw [← Option.some.inj found, Array.size_replicate]
    · cases found

def pixel? (layer : Layer) (x y : Nat) : Option Pixel := (layer.rows[y]?).bind (·[x]?)

def center (i : Nat) : Float32 := Float32.ofNat i + 0.5

def mapRows (f : Nat → Array Pixel → Array Pixel) (sizes : ∀ y row, (f y row).size = row.size)
    (layer : Layer) : Layer where
  width := layer.width
  height := layer.height
  rows := layer.rows.mapIdx f
  row_count := Array.size_mapIdx.trans layer.row_count
  row_size := by
    intro y row found
    rw [Array.getElem?_mapIdx, Option.map_eq_some_iff] at found
    obtain ⟨before, present, rfl⟩ := found
    exact (sizes y before).trans (layer.row_size y before present)

/-- The pixels are numbered row after row. -/
def change (index : Nat) (f : Pixel → Pixel) (layer : Layer) : Layer where
  width := layer.width
  height := layer.height
  rows := layer.rows.modify (index / layer.width) (·.modify (index % layer.width) f)
  row_count := Array.size_modify.trans layer.row_count
  row_size := by
    intro y row found
    rw [Array.getElem?_modify] at found
    split at found
    · obtain ⟨before, present, rfl⟩ := Option.map_eq_some_iff.mp found
      exact Array.size_modify.trans (layer.row_size y before present)
    · exact layer.row_size y row found

/-- Absent where no pixel has the number. -/
def change? (index : Int) (f : Pixel → Pixel) (layer : Layer) : Option Layer := do
  let index ← index.toNat?
  if index < layer.width * layer.height then some (layer.change index f) else none

def fill (shape : Shape) (image : Extent) (color : Color) (layer : Layer) : Layer :=
  let bytes := color.bytes
  let pieces := shape.region.map Piece.edges
  let paintRow := fun (y : Nat) (row : Array Pixel) =>
    match if shape.extent.hasRow image y then Region.spans pieces (center y) else [] with
    | [] => row
    | spans => row.mapIdx fun x below =>
      if shape.extent.hasColumn x && Region.covers spans (center x) then Pixel.paint bytes below
      else below
  layer.mapRows paintRow fun y row => by
    simp only [paintRow]
    split
    · rfl
    · exact Array.size_mapIdx

/-- Paints one place of a mask on the row `y` of the layer. Places and numbers of pixels have
32 bits. -/
def mark? (mask : Coverage) (left : Int) (bytes : Rgba Nat) (opacity : Float32) (row : Nat)
    (y : Int) (layer : Layer) (column : Nat) : Option Layer :=
  let x := Number.word (left + column)
  if 0 ≤ x ∧ x < Number.word layer.width ∧
      ¬ Pixel.seen bytes opacity (mask.value column row) ≤ 0 then
    layer.change? (Number.word (y * layer.width + x))
      (Pixel.blend bytes opacity (mask.value column row))
  else some layer

def markRow? (mask : Coverage) (left top : Int) (bytes : Rgba Nat) (opacity : Float32)
    (layer : Layer) (row : Nat) : Option Layer :=
  let y := Number.word (top + row)
  if 0 ≤ y ∧ y < Number.word layer.height then
    (List.range mask.width).foldlM (mark? mask left bytes opacity row y) layer
  else some layer

/-- Paints through a mask whose upper left corner lies at `(left, top)`, place by place. Absent
where a place has a number that no pixel has. -/
def blend? (mask : Coverage) (left top : Int) (color : Color) (opacity : Float32) (layer : Layer) :
    Option Layer :=
  (List.range mask.height).foldlM (markRow? mask left top color.bytes opacity) layer

def composite (opacity : Float32) (top below : Layer) : Layer :=
  let laid := fun (y : Nat) (row : Array Pixel) =>
    row.mapIdx fun x pixel => match top.pixel? x y with
      | some upper => Pixel.composite opacity upper pixel
      | none => pixel
  below.mapRows laid fun _ _ => Array.size_mapIdx

end Layer

structure Group where
  layer : Layer
  opacity : Float32

structure Raster where
  width : Nat
  height : Nat
  /-- Without a font no text is seen. -/
  font : Option Font
  base : Layer
  groups : List Group := []
  /-- A pixel was sought where there is none, which ends the program. -/
  isLost : Bool := false

namespace Raster

inductive Fault where
  | invalidSize (width height : Float)
  | tooWide (width height : Nat)

namespace Fault

def detail : Fault → String
  | invalidSize width height =>
    "invalid image size " ++ Number.text width ++ "x" ++ Number.text height
  | tooWide width height =>
    "cannot allocate " ++ toString width ++ "x" ++ toString height ++ " pixmap"

def message (fault : Fault) : String := "drawing surface: " ++ fault.detail

end Fault

/-- The largest number of pixels that is counted in one direction. -/
def largestSide : Float := 4294967295

def isValidSide (side : Float) : Bool := side.isFinite && 1 ≤ side && side ≤ largestSide

/-- Four bytes a pixel, and the bytes of a row are counted in 31 bits. -/
def largestWidth : Nat := (Number.twoTo 31 - 1) / 4

def allocate (width height : Nat) : Except Fault Layer :=
  if width ≤ largestWidth then .ok (Layer.blank width height)
  else .error (.tooWide width height)

def create (width height : Float) (font : Option Font) : Except Fault Raster :=
  if isValidSide width && isValidSide height then do
    let columns := Number.toCount (Number.ceiling width)
    let rows := Number.toCount (Number.ceiling height)
    let base ← allocate columns rows
    return { width := columns, height := rows, font, base }
  else .error (.invalidSize width height)

theorem allocate_of_create (width height : Float) (font : Option Font) (raster : Raster)
    (created : create width height font = .ok raster) :
    allocate raster.width raster.height = .ok raster.base ∧ raster.groups = [] := by
  unfold create at created
  split at created
  · simp only at created
    cases allocated : allocate (Number.toCount (Number.ceiling width))
        (Number.toCount (Number.ceiling height)) with
    | error fault =>
      rw [allocated] at created
      cases created
    | ok base =>
      rw [allocated] at created
      cases created
      exact ⟨allocated, rfl⟩
  · cases created

theorem blank_of_allocate (width height : Nat) (layer : Layer)
    (allocated : allocate width height = .ok layer) : layer = Layer.blank width height := by
  unfold allocate at allocated
  split at allocated
  · exact (Except.ok.inj allocated).symm
  · cases allocated

def paint (f : Layer → Layer) (raster : Raster) : Raster :=
  match raster.groups with
  | [] => { raster with base := f raster.base }
  | group :: outer => { raster with groups := { group with layer := f group.layer } :: outer }

/-- As `paint`, for what may miss the pixels. -/
def paint? (f : Layer → Option Layer) (raster : Raster) : Raster :=
  match raster.groups with
  | [] => match f raster.base with
    | some base => { raster with base }
    | none => { raster with isLost := true }
  | group :: outer => match f group.layer with
    | some layer => { raster with groups := { group with layer } :: outer }
    | none => { raster with isLost := true }

/-- The stroke is painted over the fill. -/
def paintPath (path : Path) (style : Style) (raster : Raster) : Raster :=
  match if style.isVisible then Outline.ofPath? path else none with
  | none => raster
  | some outline =>
    let image := Extent.ofSize raster.width raster.height
    let filled := match style.fill, outline.interior? with
      | some color, some shape => raster.paint (Layer.fill shape image color)
      | _, _ => raster
    match style.stroke, Stroke.shape? style image outline with
    | some color, some shape => filled.paint (Layer.fill shape image color)
    | _, _ => filled

structure Stamp where
  mask : Coverage
  left : Int
  top : Int
  color : Color

def Stamp.paint? (opacity : Float32) (layer : Layer) (stamp : Stamp) : Option Layer :=
  layer.blend? stamp.mask stamp.left stamp.top stamp.color opacity

def outlineRadius (style : TextStyle) : Nat :=
  match style.stroke with
  | some _ => Number.toCount (Number.positivePart (Number.ceiling (style.strokeWidth / 2)))
  | none => 0

def stampsOf (style : TextStyle) (glyph : Glyph) (left top : Int) : List Stamp :=
  let radius := outlineRadius style
  let outline := match style.stroke with
    | some color =>
      [⟨glyph.mask.dilate radius, Number.word (left - radius), Number.word (top - radius), color⟩]
    | none => []
  outline ++ [⟨glyph.mask, left, top, style.fill⟩]

/-- The glyphs of a line of text for a pen at `x`, each with its outline right under it. -/
def stampsFrom (style : TextStyle) (baseline x : Float32) : List Glyph → List Stamp
  | [] => []
  | glyph :: rest =>
    let left := Number.singleToPixel (Number.roundSingle (x + Float32.ofInt glyph.left))
    let height := Float32.ofInt glyph.bottom + Float32.ofNat glyph.mask.height
    let top := Number.singleToPixel (Number.roundSingle (baseline - height))
    stampsOf style glyph left top ++ stampsFrom style baseline (x + glyph.advance) rest

def stamps (font : Font) (text : String) (position : Point Float) (style : TextStyle) :
    List Stamp :=
  let glyphs := text.toList.map fun c => font.glyph c (Number.toSingle style.size)
  let advance := Ring.sum (glyphs.map (·.advance))
  let before := match style.anchor with
    | .start => 0
    | .middle => advance / 2
    | .finish => advance
  stampsFrom style (Number.toSingle position.y) (Number.toSingle position.x - before) glyphs

def paintText (text : String) (position : Point Float) (style : TextStyle) (raster : Raster) :
    Raster :=
  match raster.font with
  | none => raster
  | some font =>
    let opacity := Number.toSingle (Color.clampUnit style.opacity)
    raster.paint? fun layer =>
      (stamps font text position style).foldlM (Stamp.paint? opacity) layer

/-- Between 0 and 1; an opacity that is no number is none at all. -/
def groupOpacity (opacity : Float) : Float32 :=
  Number.toSingle (Number.least (Number.greatest opacity 0) 1)

/-- A layer of the size of the raster was allocated before, so there is one for the group too. -/
def enter (opacity : Float) (raster : Raster) : Raster :=
  let group : Group := ⟨Layer.blank raster.width raster.height, groupOpacity opacity⟩
  { raster with groups := group :: raster.groups }

/-- The base layer is never closed. -/
def leave (raster : Raster) : Raster :=
  match raster.groups with
  | [] => raster
  | group :: outer =>
    { raster with groups := outer }.paint (Layer.composite group.opacity group.layer)

instance : Canvas Raster := ⟨paintPath, paintText, enter, leave⟩

end Raster

end Cartograph

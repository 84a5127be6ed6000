import Cartograph.Path.Shape
import Cartograph.Raster.Dash
import Cartograph.Raster.Hairline

/-! The region that a pen covers along contours. The two sides of a line are drawn at once: the
outer one forward, the inner one to be added backward at the end. A closed line gives two loops,
an open one a single loop around it. -/

namespace Cartograph.Stroke

open Outline (Contour)

structure Nib where
  radius : Float32
  cap : LineCap
  join : LineJoin

def Nib.hasCaps (nib : Nib) : Bool := nib.cap != .butt

structure Normal where
  unit : Point Float32
  full : Point Float32

namespace Normal

def ofUnit (nib : Nib) (unit : Point Float32) : Normal := ⟨unit, unit * nib.radius⟩

def ofEdge? (nib : Nib) (p q : Point Float32) : Option Normal :=
  ((q - p).singleUnit?).map fun direction => ofUnit nib direction.rightNormal

/-- A line without length points down. -/
def upright (nib : Nib) : Normal := ofUnit nib ⟨1, 0⟩

def forward (full : Point Float32) : Point Float32 := ⟨-full.y, full.x⟩

end Normal

structure Sides where
  outer : List (Point Float32)
  inner : List (Point Float32)

namespace Sides

def swap (sides : Sides) : Sides := ⟨sides.inner, sides.outer⟩

def mapOuter (f : List (Point Float32) → List (Point Float32)) (sides : Sides) : Sides :=
  { sides with outer := f sides.outer }

/-- The inner side goes through the corner. -/
def turnInner (pivot full : Point Float32) (sides : Sides) : Sides :=
  { sides with inner := (pivot - full) :: pivot :: sides.inner }

end Sides

def replaceLatest (p : Point Float32) (points : List (Point Float32)) : List (Point Float32) :=
  p :: points.drop 1

/-! Joins. -/

/-- Differences up to this size do not count. -/
def tolerance : Float32 := 1 / 4096

def miterLimit : Float32 := 4

def isClockwise (before after : Point Float32) : Bool := before.y * after.x < before.x * after.y

/-- The step from a corner to the point of a miter, absent where it would reach too far. The
normals belong to the outer side. -/
def miter? (nib : Nib) (isFlipped : Bool) (before after : Point Float32) :
    Option (Point Float32) :=
  let cosine := before.dot after
  if cosine == 0 then some ((before + after) * nib.radius)
  else
    let half := ((1 + cosine) * 0.5).sqrt
    if half < 1 / miterLimit then none
    else
      let across : Point Float32 := ⟨after.y - before.y, before.x - after.x⟩
      let middle :=
        if 0 ≤ cosine then before + after else if isFlipped then -across else across
      (middle.singleUnit?).map (· * (nib.radius / half))

/-- Joins two edges at a corner; nothing is to be done where they run on almost straight. -/
def join (nib : Nib) (pivot : Point Float32) (before after : Normal) (sides : Sides) : Sides :=
  let cosine := before.unit.dot after.unit
  let isFlipped := !isClockwise before.unit after.unit
  let flip := fun p : Point Float32 => if isFlipped then -p else p
  let swap := fun sides : Sides => if isFlipped then sides.swap else sides
  let full := flip after.full
  let blunt := fun sides : Sides => (sides.mapOuter ((pivot + full) :: ·)).turnInner pivot full
  if 0 ≤ cosine && 1 - cosine ≤ tolerance && nib.join != .bevel then sides
  else
    match nib.join with
    | .miter =>
      if cosine < 0 && 1 + cosine ≤ tolerance then
        (sides.mapOuter ((pivot + after.full) :: ·)).turnInner pivot after.full
      else
        match miter? nib isFlipped (flip before.unit) (flip after.unit) with
        | some step =>
          swap (((swap sides).mapOuter (replaceLatest (pivot + step))).turnInner pivot full)
        | none => swap (blunt (swap sides))
    | .round | .bevel => swap (blunt (swap sides))

/-! Lines. -/

structure Track where
  start : Point Float32
  place : Point Float32
  firstNormal : Normal
  normal : Normal
  sides : Sides

/-- Edges shorter than this are as good as nothing. -/
def shortest : Float32 := 1 / 16384

def isShort (p q : Point Float32) : Bool := p.near q shortest

namespace Track

/-- A line that has caps may begin with an edge without length. -/
def first? (nib : Nib) (p q : Point Float32) : Option Track :=
  let normal := match Normal.ofEdge? nib p q with
    | some normal => if isShort p q && !nib.hasCaps then none else some normal
    | none => if nib.hasCaps then some (.upright nib) else none
  normal.map fun n => ⟨p, q, n, n, ⟨[q + n.full, p + n.full], [q - n.full, p - n.full]⟩⟩

def next (nib : Nib) (track : Track) (q : Point Float32) : Track :=
  match if isShort track.place q then none else Normal.ofEdge? nib track.place q with
  | none => track
  | some normal =>
    let sides := join nib track.place track.normal normal track.sides
    { track with
      place := q
      normal
      sides := ⟨(q + normal.full) :: sides.outer, (q - normal.full) :: sides.inner⟩ }

def ofPoints? (nib : Nib) : List (Point Float32) → Option Track
  | [] => none
  | p :: rest =>
    rest.foldl (fun track q =>
      match track with
      | none => first? nib p q
      | some track => some (track.next nib q)) none

def isPlace (points : List (Point Float32)) : Bool :=
  match points with
  | [] => true
  | first :: rest => rest.all (· == first)

def isEmpty (track : Track) : Bool := isPlace track.sides.outer && isPlace track.sides.inner

/-- Puts a cap at the end of a side. A cap that replaces the end of the side goes on to a side that
is added after it; otherwise it ends at `stop`. -/
def cap (kind : LineCap) (replaces : Bool) (pivot full stop : Point Float32)
    (side : List (Point Float32)) : List (Point Float32) :=
  let ahead := Normal.forward full
  match kind with
  | .butt | .round => stop :: side
  | .square =>
    if replaces then (pivot - full + ahead) :: replaceLatest (pivot + full + ahead) side
    else stop :: (pivot - full + ahead) :: (pivot + full + ahead) :: side

def openLoop (nib : Nib) (isLast : Bool) (track : Track) : List (List (Point Float32)) :=
  let stop := track.sides.inner.headD track.place
  let ended := cap nib.cap isLast track.place track.normal.full stop track.sides.outer
  let around := (track.sides.inner.drop 1).foldl (fun side p => p :: side) ended
  let full := track.firstNormal.full
  [(cap nib.cap true track.start (-full) (track.start + full) around).reverse]

def closedLoops (nib : Nib) (track : Track) : List (List (Point Float32)) :=
  let sides := join nib track.place track.normal track.firstNormal track.sides
  [sides.outer.reverse, sides.inner]

end Track

/-- A closed contour without length is as good as an open one; with caps it is seen. The last
contour of an outline ends in another way than those before it. -/
def loopsOf (nib : Nib) (isLast : Bool) (contour : Contour) : List (List (Point Float32)) :=
  let track := Track.ofPoints? nib contour.points
  if contour.isClosed then
    match track, contour.points with
    | some track, _ =>
      if nib.hasCaps && track.isEmpty then track.openLoop nib isLast
      else track.closedLoops nib
    | none, p :: _ => ((Track.first? nib p p).map (·.openLoop nib isLast)).getD []
    | none, [] => []
  else (track.map (·.openLoop nib isLast)).getD []

structure Web where
  frame : Option Frame := none
  loops : List (List (Point Float32)) := []

def Web.add (image : Extent) (web : Web) (loop : List (Point Float32)) : Web where
  frame := Frame.addAll web.frame loop
  loops := if (Frame.ofPlaces? loop).any (Extent.sees image) then loop :: web.loops else web.loops

def web (nib : Nib) (image : Extent) (contours : List Contour) : Web :=
  let early := contours.dropLast.foldl
    (fun web contour => (loopsOf nib false contour).foldl (Web.add image) web) {}
  match contours.getLast? with
  | some contour => (loopsOf nib true contour).foldl (Web.add image) early
  | none => early

/-! Round joins and caps. -/

def discSides : Nat := 32

def disc (center : Point Float) (radius : Float) : Piece :=
  [(List.range discSides).map fun i => Point.toSingle
    (Path.onCircle center radius (Path.fullTurn * Float.ofNat i / Float.ofNat discSides))]

def roundPlaces (nib : Nib) (contour : Contour) : List (Point Float32) :=
  let ends := match contour.points.head?, contour.points.getLast? with
    | some first, some last => [first, last]
    | _, _ => []
  let corners := if contour.isClosed then contour.points else (contour.points.drop 1).dropLast
  (if nib.join == .round then corners else []) ++
    if nib.cap == .round && (!contour.isClosed || Track.isPlace contour.points) then ends else []

def discs (nib : Nib) (contours : List Contour) : Region :=
  (contours.flatMap (roundPlaces nib)).map fun p => disc p.ofSingle (Number.toDouble nib.radius)

def broad? (nib : Nib) (image : Extent) (contours : List Contour) : Option Shape := do
  let web := web nib image contours
  let frame ← web.frame
  if frame.isWithinReach then
    let extent ← Extent.ofFilled? frame
    return ⟨web.loops :: discs nib contours, extent⟩
  else none

/-- A pen that is no wider than a pixel draws the thinnest line there is, one of negative width
nothing. -/
def shape? (style : Style) (image : Extent) (outline : Outline) : Option Shape := do
  let width := Number.toSingle style.width
  let contours ← match Dash.ofLengths? style.dash with
    | some dash => dash.contours? outline.contours
    | none => some outline.contours
  if width < 0 then none
  else if width ≤ 1 then Hairline.shape? style.lineCap image contours
  else if width.isFinite then broad? ⟨width * 0.5, style.lineCap, style.lineJoin⟩ image contours
  else none

end Cartograph.Stroke

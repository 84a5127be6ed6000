import Cartograph.Proofs.Figure.Area
import Cartograph.Proofs.Figure.Orientation
import Cartograph.Proofs.Scene.Outcome
import Cartograph.Scene.Loading

/-! Loading a scene. It fails just if its source has a fault, and then with the first one in the
order in which the parts of the source are looked at. Otherwise all that is in the source is in the
scene, in the same order and projected. -/

namespace Cartograph

section Held

variable (projection : Projection) (scheme : ColorScheme)

/-- The rings are these lines, projected point by point, each perhaps turned around as a whole. -/
structure Figure.Holds (tags : Tags) (inners outers : List Source.Line) (figure : Figure) :
    Prop where
  tags : figure.tags = tags
  inners : List.Forall₂ (fun line ring => Ring.SameWay (line.map projection.project) ring) inners
    figure.inners
  outers : List.Forall₂ (fun line ring => Ring.SameWay (line.map projection.project) ring) outers
    figure.outers

structure StyledFigure.Holds (source : Source.Figure) (styled : StyledFigure) : Prop where
  figure : Figure.Holds projection source.tags source.inners source.outers styled.figure
  style : styled.style = source.style
  priority : styled.priority = .ofFloat source.priority
  parallel : styled.parallel = source.parallel

def Building.Holds (source : Source.Building) (building : Building) : Prop :=
  Figure.Holds projection source.tags source.inners source.outers building.figure

structure Road.Holds (source : Source.Road) (road : Road) : Prop where
  tags : road.tags = source.tags
  points : road.points = source.points.map projection.project
  width : road.width = source.width * projection.scale
  color : road.color = source.color
  border : road.border = source.border
  priority : road.priority = .ofFloat source.priority

structure Node.Holds (source : Source.Node) (node : Node) : Prop where
  tags : node.tags = source.tags
  point : node.point = projection.project source.point

structure IconShape.Holds (source : Source.IconShape) (shape : IconShape) : Prop where
  path : Path.read source.path = .ok shape.path
  fill : shape.fill = source.fill

structure Icon.Holds (source : Source.Icon) (icon : Icon) : Prop where
  shapes : List.Forall₂ IconShape.Holds source.shapes icon.shapes
  isDefault : icon.isDefault = source.isDefault

structure Label.Holds (source : Source.Label) (label : Label) : Prop where
  text : label.text = source.text
  fill : label.fill = source.fill.getD scheme.label
  size : label.size = source.size
  outFill : label.outFill = source.outFill

structure Feature.Holds (source : Source.Feature) (feature : Feature) : Prop where
  tags : feature.tags = source.tags
  processed : ∀ name, name ∈ feature.processed ↔ name ∈ source.processed
  mainIcon : Icon.Holds source.icon feature.mainIcon
  extraIcons : List.Forall₂ Icon.Holds source.extraIcons feature.extraIcons
  defaultIcon : Option.Rel Icon.Holds source.defaultIcon feature.defaultIcon
  labels : List.Forall₂ (Label.Holds scheme) source.labels feature.labels
  point : feature.point = projection.project source.point
  priority : feature.priority = .ofFloat source.priority
  isForNode : feature.isForNode = source.isForNode
  isOutlined : feature.isOutlined = source.isOutlined

structure Scene.Holds (source : Source.Scene) (scene : Scene) : Prop where
  size : scene.size = projection.size
  scale : scene.scale = projection.scale
  figures : List.Forall₂ (StyledFigure.Holds projection) source.figures scene.figures
  buildings : List.Forall₂ (Building.Holds projection) source.buildings scene.buildings
  roads : List.Forall₂ (Road.Holds projection) source.roads scene.roads
  trees : List.Forall₂ (Node.Holds projection) source.trees scene.trees
  craters : List.Forall₂ (Node.Holds projection) source.craters scene.craters
  directions : List.Forall₂ (Node.Holds projection) source.directions scene.directions
  points : List.Forall₂ (Feature.Holds projection scheme) source.points scene.points

end Held

section Faults

/-- What is wrong with a shape, of which there is at most one thing. -/
def Source.IconShape.faults (shape : Source.IconShape) : List Scene.IconFault :=
  match Path.read shape.path with
  | .ok _ => []
  | .error fault => [⟨shape.path, fault⟩]

def Source.Icon.faults (icon : Source.Icon) : List Scene.IconFault :=
  icon.shapes.flatMap Source.IconShape.faults

def Source.Feature.icons (feature : Source.Feature) : Scene.IconRole → List Source.Icon
  | .main => [feature.icon]
  | .extra => feature.extraIcons
  | .substitute => feature.defaultIcon.toList

def Source.Feature.IsReadable (feature : Source.Feature) : Prop :=
  ∀ role, ∀ icon ∈ feature.icons role, ∀ shape ∈ icon.shapes,
    ∃ path, Path.read shape.path = .ok path

def Source.Feature.faults (index : Nat) (feature : Source.Feature) : List Scene.Fault :=
  [Scene.IconRole.main, .extra, .substitute].flatMap fun role =>
    ((feature.icons role).flatMap Source.Icon.faults).map (.icon index role)

/-- All that is wrong with a source: its bounds, its scale, and then its features one by one, each
with the main icon before the extra ones and those before the default icon. -/
def Source.Scene.faults (source : Source.Scene) : List Scene.Fault :=
  (if 0 < source.bounds.width ∧ 0 < source.bounds.height then [] else [.emptyBounds]) ++
    ((if source.scale.isFinite = true ∧ 0 < source.scale then []
      else [.invalidScale source.scale]) ++
    source.points.zipIdx.flatMap fun entry => entry.1.faults entry.2)

end Faults

section Rings

variable (projection : Projection)

theorem Figure.holds_ofRings (tags : Tags) (inners outers : List Source.Line) :
    Figure.Holds projection tags inners outers
      (Figure.ofRings tags (Scene.projectLines projection inners)
        (Scene.projectLines projection outers)) := by
  obtain ⟨holes, boundaries⟩ := Ring.sameWay_normalize (Scene.projectLines projection inners)
    (Scene.projectLines projection outers)
  rw [Scene.projectLines, List.forall₂_map_left_iff] at holes boundaries
  exact ⟨rfl, holes, boundaries⟩

theorem Point.floats_ranks (p : Point Float) : p.ranks.floats = p := by
  change (⟨Float.ofBits p.x.toBits, Float.ofBits p.y.toBits⟩ : Point Float) = p
  rw [Float.ofBits_toBits, Float.ofBits_toBits]

theorem Building.figure_ofRings (tags : Tags) (inners outers : List (List (Point Number.Rank)))
    (scheme : ColorScheme) (extrusion : Extrusion) :
    (Building.ofRings tags inners outers scheme extrusion).figure =
      Figure.ofRings tags (inners.map (List.map Point.floats))
        (outers.map (List.map Point.floats)) := by
  rw [Figure.ofRings, Ring.normalizeBy_place]
  rfl

theorem Scene.holds_loadBuilding (configuration : Configuration) (source : Source.Building) :
    Building.Holds projection source (loadBuilding configuration projection source) := by
  have floats (rings : List Ring) :
      (rings.map fun ring => ring.map Point.ranks).map (List.map Point.floats) = rings := by
    have kept : Point.floats ∘ Point.ranks = id := funext Point.floats_ranks
    simp [kept]
  rw [Building.Holds, loadBuilding, Building.figure_ofRings, floats, floats]
  exact Figure.holds_ofRings projection source.tags source.inners source.outers

theorem Scene.holds_loadNodes (sources : List Source.Node) :
    List.Forall₂ (Node.Holds projection) sources (sources.map (loadNode projection)) := by
  rw [List.forall₂_map_right_iff, List.forall₂_same]
  exact fun node _ => ⟨rfl, rfl⟩

end Rings

namespace Table

theorem mem_insertInto {α : Type} (name other : String) (value : α)
    (entries : List (String × α)) :
    other ∈ (insertInto name value entries).map Prod.fst ↔
      other = name ∨ other ∈ entries.map Prod.fst := by
  induction entries with
  | nil => simp [insertInto]
  | cons entry rest ih =>
    obtain ⟨key, old⟩ := entry
    unfold insertInto
    split
    · simp
    · split
      · rw [List.map_cons, List.mem_cons, ih, List.map_cons, List.mem_cons]
        exact or_left_comm
      · next not_below not_above =>
        have same : name = key := le_antisymm (not_lt.mp not_above) (not_lt.mp not_below)
        simp [same]

theorem mem_names_insert {α : Type} (table : Table α) (name other : String) (value : α) :
    other ∈ (table.insert name value).names ↔ other = name ∨ other ∈ table.names :=
  mem_insertInto name other value table.entries

end Table

namespace Scene

theorem mem_nameSet (names : List String) (name : String) :
    name ∈ nameSet names ↔ name ∈ names := by
  have inserted (entries : List (String × Unit)) (table : Table Unit) :
      name ∈ (entries.foldl (fun table (key, value) => table.insert key value) table).names ↔
        name ∈ table.names ∨ name ∈ entries.map Prod.fst := by
    induction entries generalizing table with
    | nil => simp
    | cons entry rest ih =>
      rw [List.foldl_cons, ih, Table.mem_names_insert, List.map_cons, List.mem_cons, or_assoc,
        or_left_comm]
  rw [nameSet, Table.ofList, inserted]
  simp [Table.names, Table.empty]

theorem loadShape_outcome (source : Source.IconShape) :
    Outcome source.faults (IconShape.Holds source) (loadShape source) := by
  unfold Source.IconShape.faults loadShape
  cases read : Path.read source.path with
  | ok path => exact .ok _ ⟨read, rfl⟩
  | error fault => exact List.head?_cons

theorem loadIcon_outcome (source : Source.Icon) :
    Outcome source.faults (Icon.Holds source) (loadIcon source) := by
  have shapes := Outcome.mapM _ _ loadShape loadShape_outcome source.shapes
  exact shapes.map _ _ fun loaded each => ⟨each, rfl⟩

theorem loadFeature_outcome (scheme : ColorScheme) (projection : Projection) (index : Nat)
    (source : Source.Feature) :
    Outcome (source.faults index) (Feature.Holds projection scheme source)
      (loadFeature scheme projection index source) := by
  have mainIcon := (loadIcon_outcome source.icon).mapError (Fault.icon index .main)
  have extraIcons := (Outcome.mapM _ _ loadIcon loadIcon_outcome source.extraIcons).mapError
    (Fault.icon index .extra)
  have defaultIcon := (Outcome.mapM_option _ _ loadIcon loadIcon_outcome
    source.defaultIcon).mapError (Fault.icon index .substitute)
  have labels : List.Forall₂ (Label.Holds scheme) source.labels
      (source.labels.map (loadLabel scheme)) := by
    rw [List.forall₂_map_right_iff, List.forall₂_same]
    exact fun label _ => ⟨rfl, rfl, rfl, rfl⟩
  have order : source.faults index =
      source.icon.faults.map (.icon index .main) ++
        ((source.extraIcons.flatMap Source.Icon.faults).map (.icon index .extra) ++
          ((source.defaultIcon.toList.flatMap Source.Icon.faults).map (.icon index .substitute) ++
            [])) := by
    simp [Source.Feature.faults, Source.Feature.icons]
  rw [order]
  exact mainIcon.bind _ _ _ fun main first => extraIcons.bind _ _ _ fun extras others =>
    defaultIcon.bind _ _ _ fun substitute last => .ok _
      { tags := rfl, processed := mem_nameSet source.processed, mainIcon := first
        extraIcons := others, defaultIcon := last, labels, point := rfl, priority := rfl
        isForNode := rfl, isOutlined := rfl }

theorem loadFeatures_outcome (scheme : ColorScheme) (projection : Projection) (index : Nat)
    (sources : List Source.Feature) :
    Outcome ((sources.zipIdx index).flatMap fun entry => entry.1.faults entry.2)
      (List.Forall₂ (Feature.Holds projection scheme) sources)
      (loadFeatures scheme projection index sources) := by
  induction sources generalizing index with
  | nil => exact .ok [] .nil
  | cons source rest ih =>
    have others := ih (index + 1)
    rw [List.zipIdx_cons, List.flatMap_cons,
      ← List.append_nil ((rest.zipIdx (index + 1)).flatMap _)]
    exact (loadFeature_outcome scheme projection index source).bind _ _ _ fun feature first =>
      others.bind _ _ _ fun features held => .ok _ (.cons first held)

theorem ofSource_outcome (configuration : Configuration) (source : Source.Scene) :
    Outcome source.faults (Scene.Holds ⟨source.bounds, source.scale⟩ configuration.scheme source)
      (ofSource configuration source) := by
  let projection : Projection := ⟨source.bounds, source.scale⟩
  unfold Source.Scene.faults ofSource
  by_cases size : 0 < source.bounds.width ∧ 0 < source.bounds.height
  · have sized : hasSize source.bounds = true := by simpa [hasSize] using size
    rw [if_pos size, sized, List.nil_append]
    by_cases scale : source.scale.isFinite = true ∧ 0 < source.scale
    · have scaled : (source.scale.isFinite && 0 < source.scale) = true := by simpa using scale
      rw [if_pos scale, scaled, List.nil_append]
      have points := loadFeatures_outcome configuration.scheme projection 0 source.points
      refine points.map _ _ fun features held => ?_
      exact {
        size := rfl
        scale := rfl
        figures := by
          rw [List.forall₂_map_right_iff, List.forall₂_same]
          exact fun figure _ => ⟨Figure.holds_ofRings projection _ _ _, rfl, rfl, rfl⟩
        buildings := by
          rw [List.forall₂_map_right_iff, List.forall₂_same]
          exact fun building _ => holds_loadBuilding projection configuration building
        roads := by
          rw [List.forall₂_map_right_iff, List.forall₂_same]
          exact fun road _ => ⟨rfl, rfl, rfl, rfl, rfl, rfl⟩
        trees := holds_loadNodes projection source.trees
        craters := holds_loadNodes projection source.craters
        directions := holds_loadNodes projection source.directions
        points := held }
    · have unscaled : (source.scale.isFinite && 0 < source.scale) = false := by simpa using scale
      rw [if_neg scale, unscaled]
      exact List.head?_cons
  · have unsized : hasSize source.bounds = false := by simpa [hasSize] using size
    rw [if_neg size, unsized]
    exact List.head?_cons

end Scene

section Complete

theorem Source.IconShape.mem_faults_iff (shape : Source.IconShape) (inner : Scene.IconFault) :
    inner ∈ shape.faults ↔
      shape.path = inner.path ∧ Path.read shape.path = .error inner.fault := by
  obtain ⟨path, fault⟩ := inner
  unfold Source.IconShape.faults
  cases Path.read shape.path <;> simp [eq_comm]

theorem Source.IconShape.faults_eq_nil_iff (shape : Source.IconShape) :
    shape.faults = [] ↔ ∃ path, Path.read shape.path = .ok path := by
  unfold Source.IconShape.faults
  cases Path.read shape.path <;> simp

theorem Source.Feature.mem_faults_iff (feature : Source.Feature) (index number : Nat)
    (role : Scene.IconRole) (inner : Scene.IconFault) :
    .icon number role inner ∈ feature.faults index ↔
      number = index ∧ ∃ icon ∈ feature.icons role, ∃ shape ∈ icon.shapes,
        shape.path = inner.path ∧ Path.read shape.path = .error inner.fault := by
  have every (role : Scene.IconRole) :
      role ∈ [Scene.IconRole.main, .extra, .substitute] := by
    cases role <;> decide
  simp only [Source.Feature.faults, List.mem_flatMap, List.mem_map, Scene.Fault.icon.injEq,
    Source.Icon.faults, Source.IconShape.mem_faults_iff]
  constructor
  · rintro ⟨_, -, _, found, rfl, rfl, rfl⟩
    exact ⟨rfl, found⟩
  · rintro ⟨rfl, found⟩
    exact ⟨role, every role, inner, found, rfl, rfl, rfl⟩

theorem Source.Feature.faults_eq_nil_iff (feature : Source.Feature) (index : Nat) :
    feature.faults index = [] ↔ feature.IsReadable := by
  have every (fine : Scene.IconRole → Prop) :
      (∀ role ∈ [Scene.IconRole.main, .extra, .substitute], fine role) ↔ ∀ role, fine role := by
    refine ⟨fun listed role => listed role (by cases role <;> decide), fun all role _ => all role⟩
  simp only [Source.Feature.faults, List.flatMap_eq_nil_iff, List.map_eq_nil_iff,
    Source.Icon.faults, Source.IconShape.faults_eq_nil_iff, every, Source.Feature.IsReadable]

theorem Source.Scene.faults_eq_nil_iff (source : Source.Scene) :
    source.faults = [] ↔
      (0 < source.bounds.width ∧ 0 < source.bounds.height) ∧
        (source.scale.isFinite = true ∧ 0 < source.scale) ∧
          ∀ feature ∈ source.points, feature.IsReadable := by
  have guarded (condition : Prop) [Decidable condition] (fault : Cartograph.Scene.Fault) :
      (if condition then [] else [fault]) = [] ↔ condition := by
    by_cases holds : condition <;> simp [holds]
  have numbered (fine : Source.Feature → Prop) :
      (∀ entry ∈ source.points.zipIdx, fine entry.1) ↔ ∀ feature ∈ source.points, fine feature := by
    rw [← List.forall_mem_map, List.zipIdx_map_fst]
  simp only [Source.Scene.faults, List.append_eq_nil_iff, List.flatMap_eq_nil_iff, guarded,
    Source.Feature.faults_eq_nil_iff, numbered Source.Feature.IsReadable]

theorem Source.Scene.mem_faults_iff (source : Source.Scene) (index : Nat)
    (role : Cartograph.Scene.IconRole) (inner : Cartograph.Scene.IconFault) :
    .icon index role inner ∈ source.faults ↔
      ∃ feature, source.points[index]? = some feature ∧ ∃ icon ∈ feature.icons role,
        ∃ shape ∈ icon.shapes,
          shape.path = inner.path ∧ Path.read shape.path = .error inner.fault := by
  have guarded (condition : Prop) [Decidable condition] (fault : Cartograph.Scene.Fault)
      (other : .icon index role inner ≠ fault) :
      .icon index role inner ∉ if condition then [] else [fault] := by
    by_cases holds : condition <;> simp [holds, other]
  have bounds := guarded (0 < source.bounds.width ∧ 0 < source.bounds.height) .emptyBounds nofun
  have scale := guarded (source.scale.isFinite = true ∧ 0 < source.scale)
    (.invalidScale source.scale) nofun
  rw [Source.Scene.faults, List.mem_append, or_iff_right bounds, List.mem_append,
    or_iff_right scale]
  simp only [List.mem_flatMap, Prod.exists, Source.Feature.mem_faults_iff,
    List.mem_zipIdx_iff_getElem?]
  constructor
  · rintro ⟨feature, _, listed, rfl, found⟩
    exact ⟨feature, listed, found⟩
  · rintro ⟨feature, listed, found⟩
    exact ⟨feature, index, listed, rfl, found⟩

end Complete

namespace Scene

/-- A scene is loaded just if its source has positive extents, a positive finite scale and icons
whose paths can all be read; it then holds all of the source. Otherwise the error is the first fault
of the source, and one of an icon tells which feature, which icon and which path is at fault. -/
theorem ofSource_loads (configuration : Configuration) (source : Source.Scene) :
    ((∃ scene, ofSource configuration source = .ok scene) ↔
      (0 < source.bounds.width ∧ 0 < source.bounds.height) ∧
        (source.scale.isFinite = true ∧ 0 < source.scale) ∧
          ∀ feature ∈ source.points, feature.IsReadable) ∧
    (∀ scene, ofSource configuration source = .ok scene →
      Scene.Holds ⟨source.bounds, source.scale⟩ configuration.scheme source scene) ∧
    (∀ fault, ofSource configuration source = .error fault ↔ source.faults.head? = some fault) ∧
    ∀ index role inner, ofSource configuration source = .error (.icon index role inner) →
      (∃ feature, source.points[index]? = some feature ∧ ∃ icon ∈ feature.icons role,
        ∃ shape ∈ icon.shapes,
          shape.path = inner.path ∧ Path.read shape.path = .error inner.fault) ∧
      (Fault.icon index role inner).causes =
        ["point " ++ toString index ++ ": " ++ role.name, "icon path `" ++ inner.path ++ "`",
          inner.fault.message] := by
  have outcome := ofSource_outcome configuration source
  refine ⟨outcome.value_iff.trans source.faults_eq_nil_iff, outcome.good_of_ok,
    outcome.error_iff, fun index role inner failed => ⟨?_, rfl⟩⟩
  exact (source.mem_faults_iff index role inner).mp
    (List.mem_of_head? ((outcome.error_iff _).mp failed))

/-- Two features, of which the second has these extra icons and a default icon without a path. -/
def square (extra : List String) : Source.Scene where
  bounds := ⟨⟨0, 0⟩, ⟨40, 40⟩⟩
  scale := 1
  points := [{ point := ⟨10, 10⟩, icon := { shapes := [⟨"M 4,4 L 12,12", Color.black⟩] } },
    { point := ⟨30, 30⟩
      extraIcons := extra.map fun path => { shapes := [⟨"M 2,2", Color.white⟩, { path }] }
      defaultIcon := some { shapes := [{ path := "" }] } }]

theorem second_feature_reported :
    (∃ scene, ofSource {} (square []) = .ok scene ∧
      Scene.Holds ⟨⟨⟨0, 0⟩, ⟨40, 40⟩⟩, 1⟩ {} (square []) scene) ∧
    ofSource {} (square ["L 8", "x"]) = .error (.icon 1 .extra ⟨"L 8", .missingAtEnd 2⟩) ∧
      (Fault.icon 1 .extra ⟨"L 8", .missingAtEnd 2⟩).causes =
        ["point 1: extra icons", "icon path `L 8`",
          "path parse error at token 2: missing operand at end of path"] := by
  obtain ⟨-, held, -, -⟩ := ofSource_loads {} (square [])
  obtain ⟨-, -, failed, named⟩ := ofSource_loads {} (square ["L 8", "x"])
  have read : ∃ scene, ofSource {} (square []) = .ok scene := ⟨_, rfl⟩
  obtain ⟨scene, loaded⟩ := read
  have error := (failed (.icon 1 .extra ⟨"L 8", .missingAtEnd 2⟩)).mpr rfl
  exact ⟨⟨scene, loaded, held scene loaded⟩, error, (named _ _ _ error).2⟩

end Scene

end Cartograph

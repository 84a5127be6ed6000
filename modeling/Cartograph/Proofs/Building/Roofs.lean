import Cartograph.Proofs.Building.Painting
import Cartograph.Proofs.Number.Range
import Cartograph.Scene.Loading

/-! The roofs of the buildings that a scene is read with. A building has one roof if its height is
finite; what its tags say may be too large for that, though every number in them is finite. -/

namespace Cartograph

open Number

namespace Building

def heightSources (tags : Tags) (extrusion : Extrusion) : List Float :=
  extrusion.minimalHeight :: extrusion.levelHeight ::
    ["building:levels", "building:min_level"].filterMap (Tags.number? tags) ++
    ["height", "min_height"].filterMap (Tags.length? tags)

section Heights

variable (tags : Tags) (extrusion : Extrusion)
  (moderate : ∀ x ∈ heightSources tags extrusion, isModerate x = true)

include moderate

theorem isFinite_heightFromTags (levels length : String)
    (levels_listed : levels ∈ ["building:levels", "building:min_level"])
    (length_listed : length ∈ ["height", "min_height"]) (height : Float)
    (given : heightFromTags? tags levels length extrusion = some height) :
    height.isFinite = true := by
  have base := bounded_of_moderate _ (moderate extrusion.minimalHeight (by simp [heightSources]))
  have level := bounded_of_moderate _ (moderate extrusion.levelHeight (by simp [heightSources]))
  unfold heightFromTags? at given
  split at given
  · next count read =>
    have known : Tags.number? tags levels = some count := (Option.filter_eq_some_iff.mp read).1
    have listed : count ∈ heightSources tags extrusion :=
      List.mem_append_left _ <| List.mem_cons_of_mem _ <| List.mem_cons_of_mem _ <|
        List.mem_filterMap.mpr ⟨levels, levels_listed, known⟩
    have product := bounded_mul 446 446 count extrusion.levelHeight (by decide) (by decide)
      (by decide) (bounded_of_moderate count (moderate count listed)) level
    obtain rfl := Option.some.inj given
    exact isFinite_of_bounded _ _ (bounded_add 946 _ _ (by decide) (by decide)
      (within_mono 446 946 (by decide) _ base) product)
  · obtain ⟨size, read, rfl⟩ := Option.map_eq_some_iff.mp given
    have known : Tags.length? tags length = some size := (Option.filter_eq_some_iff.mp read).1
    have listed : size ∈ heightSources tags extrusion :=
      List.mem_append_right _ (List.mem_filterMap.mpr ⟨length, length_listed, known⟩)
    exact isFinite_of_bounded _ _ (bounded_add 446 _ _ (by decide) (by decide) base
      (bounded_of_moderate size (moderate size listed)))

theorem heights_finite (inners outers : List (List (Point Rank))) (scheme : ColorScheme) :
    (ofRings tags inners outers scheme extrusion).height.isFinite = true ∧
      (ofRings tags inners outers scheme extrusion).minHeight.isFinite = true := by
  have base := moderate extrusion.minimalHeight (by simp [heightSources])
  constructor
  · change ((heightFromTags? tags "building:levels" "height" extrusion).getD
      extrusion.minimalHeight).isFinite = true
    cases given : heightFromTags? tags "building:levels" "height" extrusion with
    | none => exact isFinite_of_bounded _ _ (bounded_of_moderate _ base)
    | some height =>
      exact isFinite_heightFromTags tags extrusion moderate _ _ (by simp) (by simp) height given
  · change ((heightFromTags? tags "building:min_level" "min_height" extrusion).getD 0).isFinite =
      true
    cases given : heightFromTags? tags "building:min_level" "min_height" extrusion with
    | none => exact show (0 : Float).isFinite = true by decide +kernel
    | some height =>
      exact isFinite_heightFromTags tags extrusion moderate _ _ (by simp) (by simp) height given

end Heights

end Building

namespace Bands

/-- The heights of the buildings are among those that the plan is made of. -/
theorem countP_roof_heights (buildings : List Building) (extrusion : Extrusion) (index : Nat)
    (building : Building) (found : buildings[index]? = some building) :
    (plan (heights buildings extrusion) buildings (Wall.ofBuildings buildings)).countP
        (Step.isRoofOf index) = if building.height.isFinite then 1 else 0 := by
  obtain ⟨rising, finite, -⟩ := levels_normalize (heights buildings extrusion)
  have top_numbers (top : Float) (member : top ∈ normalize (heights buildings extrusion)) :
      top.isNaN = false := number_of_isFinite top (finite top member)
  rw [plan, countP_roof buildings 0 _ top_numbers rising, found, Option.any_some, any_normalize,
    any_finite, heights, any_normalize, any_finite, ← Bool.and_assoc, Bool.and_self]
  have listed : building.height ∈ extrusion.lowHeight :: extrusion.middleHeight ::
      buildings.flatMap fun building => [building.height, building.minHeight] := by
    apply List.mem_cons_of_mem
    apply List.mem_cons_of_mem
    exact List.mem_flatMap.mpr ⟨building, List.mem_of_getElem? found, List.mem_cons_self⟩
  cases known : building.height.isFinite with
  | false => rfl
  | true =>
    have number := number_of_isFinite _ known
    have itself : (building.height == building.height) = true :=
      (beq_iff _ _ number number).mpr rfl
    rw [List.any_eq_true.mpr ⟨building.height, listed, itself⟩]
    rfl

end Bands

namespace Scene

theorem buildings_of_read (configuration : Configuration) (text : String) (scene : Scene)
    (accepted : read configuration text = .ok scene) :
    ∃ (projection : Projection) (sources : List Source.Building),
      scene.buildings = sources.map (loadBuilding configuration projection) := by
  unfold read at accepted
  split at accepted
  · next source decoded =>
    unfold ofSource at accepted
    split at accepted
    · cases accepted
    · split at accepted
      · cases accepted
      · let projection : Projection := ⟨source.bounds, source.scale⟩
        change (loadFeatures configuration.scheme projection 0 source.points >>= _) = _ at accepted
        cases loaded : loadFeatures configuration.scheme projection 0 source.points with
        | error =>
          rw [loaded] at accepted
          cases accepted
        | ok points =>
          rw [loaded] at accepted
          obtain rfl := Except.ok.inj accepted
          exact ⟨projection, source.buildings, rfl⟩
  · cases accepted

theorem roofs_of_read (configuration : Configuration) (text : String) (scene : Scene)
    (accepted : read configuration text = .ok scene) (index : Nat) (building : Building)
    (found : scene.buildings[index]? = some building) :
    (Bands.plan (Bands.heights scene.buildings configuration.extrusion) scene.buildings
        (Wall.ofBuildings scene.buildings)).countP (Bands.Step.isRoofOf index) =
      (if building.height.isFinite then 1 else 0) ∧
    ((∀ x ∈ Building.heightSources building.figure.tags configuration.extrusion,
        isModerate x = true) →
      building.height.isFinite = true ∧ building.minHeight.isFinite = true) := by
  refine ⟨Bands.countP_roof_heights _ _ index building found, ?_⟩
  intro moderate
  obtain ⟨projection, sources, loaded⟩ := buildings_of_read configuration text scene accepted
  rw [loaded, List.getElem?_map] at found
  obtain ⟨source, -, rfl⟩ := Option.map_eq_some_iff.mp found
  exact Building.heights_finite source.tags configuration.extrusion moderate _ _ _

def skylineText : String :=
  "\x7b\"bounds\": \x7b\"min\": [0, 0], \"max\": [9, 9]\x7d, \"scale\": 1, \"buildings\": [" ++
    "\x7b\"tags\": \x7b\"height\": \"1e306 km\"\x7d, \"outers\": []\x7d, " ++
    "\x7b\"tags\": \x7b\"building:levels\": \"2\"\x7d, \"outers\": []\x7d]\x7d"

def skylineDocument : Document :=
  let corner (x : String) : Document := .list [.number x, .number x]
  let building (key value : String) : Document := .record [
    (some "tags", .record [(some key, .text (some value))]), (some "outers", .list [])]
  .record [(some "bounds", .record [(some "min", corner "0"), (some "max", corner "9")]),
    (some "scale", .number "1"),
    (some "buildings", .list [building "height" "1e306 km", building "building:levels" "2"])]

set_option maxRecDepth 2000 in
theorem parse_skyline : Document.parse skylineText = ⟨skylineDocument, true⟩ := by cbv

def isSkyline (scene : Scene) : Bool :=
  match scene.buildings with
  | [tower, house] => !tower.height.isFinite &&
    (Building.heightSources house.figure.tags {}).all isModerate
  | _ => false

theorem skyline_read :
    ∃ scene tower house, read {} skylineText = .ok scene ∧ scene.buildings = [tower, house] ∧
      tower.height.isFinite = false ∧
      ∀ x ∈ Building.heightSources house.figure.tags {}, isModerate x = true := by
  have checked : (read {} skylineText).toOption.any isSkyline = true := by
    unfold read Document.decode
    rw [parse_skyline]
    decide +kernel
  cases accepted : read {} skylineText with
  | error =>
    rw [accepted] at checked
    cases checked
  | ok scene =>
    rw [accepted] at checked
    change isSkyline scene = true at checked
    unfold isSkyline at checked
    split at checked
    · next tower house listed =>
      simp only [Bool.and_eq_true, Bool.not_eq_true', List.all_eq_true] at checked
      exact ⟨scene, tower, house, rfl, listed, checked⟩
    · cases checked

theorem skyline_roofed :
    ∃ scene house, read {} skylineText = .ok scene ∧ scene.buildings[1]? = some house ∧
      (∀ x ∈ Building.heightSources house.figure.tags {}, isModerate x = true) ∧
      house.height.isFinite = true ∧
      (Bands.plan (Bands.heights scene.buildings {}) scene.buildings
        (Wall.ofBuildings scene.buildings)).countP (Bands.Step.isRoofOf 1) = 1 := by
  obtain ⟨scene, tower, house, accepted, listed, -, moderate⟩ := skyline_read
  have found : scene.buildings[1]? = some house := by rw [listed]; rfl
  obtain ⟨roofs, finite⟩ := roofs_of_read {} skylineText scene accepted 1 house found
  have reaches := (finite moderate).1
  rw [if_pos reaches] at roofs
  exact ⟨scene, house, accepted, found, moderate, reaches, roofs⟩

theorem skyline_unroofed :
    ∃ scene tower, read {} skylineText = .ok scene ∧ scene.buildings[0]? = some tower ∧
      tower.height.isFinite = false ∧
      (Bands.plan (Bands.heights scene.buildings {}) scene.buildings
        (Wall.ofBuildings scene.buildings)).countP (Bands.Step.isRoofOf 0) = 0 := by
  obtain ⟨scene, tower, house, accepted, listed, high, -⟩ := skyline_read
  have found : scene.buildings[0]? = some tower := by rw [listed]; rfl
  have roofs := Bands.countP_roof_heights scene.buildings {} 0 tower found
  rw [if_neg (by simp [high])] at roofs
  exact ⟨scene, tower, accepted, found, high, roofs⟩

end Scene

end Cartograph

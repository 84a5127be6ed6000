import Mathlib
import Cartograph.Proofs.Building.Levels
import Cartograph.Proofs.Building.Walls

/-! The steps of a plan and their order. What is drawn later never lies behind what is drawn
earlier: heights rise, walls come before roofs, and walls and roofs keep their own order. Heights
that are equal as numbers give the same steps. -/

namespace Cartograph.Bands

open Number

namespace Step

def top : Step → Float
  | .wall _ _ top => top
  | .roof _ top => top

def RoofOver : Step → Step → Prop
  | .roof index _, .wall side _ _ => side.building = index
  | _, _ => False

def Follows (walls : List Wall) : Step → Step → Prop
  | .wall a _ _, .wall b _ _ => a.position walls < b.position walls ∧ a.Nearing b
  | .wall .., .roof .. => True
  | .roof .., .wall .. => False
  | .roof a _, .roof b _ => a < b

structure Precedes (walls : List Wall) (earlier later : Step) : Prop where
  top_le : earlier.top ≤ later.top
  at_one_top : (earlier.top == later.top) = true → Follows walls earlier later

def Same : Step → Step → Prop
  | .wall a bottom top, .wall b bottom' top' =>
    a = b ∧ (bottom == bottom') = true ∧ (top == top') = true
  | .roof a top, .roof b top' => a = b ∧ (top == top') = true
  | _, _ => False

end Step

section Stands

variable (building : Building) (low_number : building.minHeight.isNaN = false)
  (high_number : building.height.isNaN = false)

include low_number high_number

theorem stands_eq (top : Float) (top_number : top.isNaN = false) :
    stands building top =
      (building.hasWalls && decide (building.minHeight < top) &&
        decide (top ≤ building.height)) := by
  have low : decide (top ≤ building.minHeight) = !decide (building.minHeight < top) := by
    rw [← decide_not, decide_eq_decide, le_iff _ _ top_number low_number,
      lt_iff _ _ low_number top_number, not_lt]
  have high : decide (building.height < top) = !decide (top ≤ building.height) := by
    rw [← decide_not, decide_eq_decide, lt_iff _ _ high_number top_number,
      le_iff _ _ top_number high_number, not_le]
  rw [stands, low, high, Bool.not_not, Bool.not_not, Bool.and_assoc, Bool.and_assoc,
    Bool.and_comm (decide (top ≤ building.height))]

theorem stands_congr (top other : Float) (same : (top == other) = true) :
    stands building top = stands building other := by
  obtain ⟨top_number, other_number⟩ := numbers_of_beq top other same
  rw [beq_iff top other top_number other_number] at same
  rw [stands_eq building low_number high_number top top_number,
    stands_eq building low_number high_number other other_number]
  simp only [lt_iff _ _ low_number top_number, lt_iff _ _ low_number other_number,
    le_iff _ _ top_number high_number, le_iff _ _ other_number high_number, same]

end Stands

def bandSteps (buildings : Array Building) (walls : List Wall) (band : Float × Float) :
    List Step :=
  wallSteps buildings walls band.1 band.2 ++ roofSteps buildings band.2

theorem planFrom_eq_flatMap (buildings : Array Building) (walls : List Wall) (bottom : Float)
    (tops : List Float) :
    planFrom buildings walls bottom tops =
      ((bottom :: tops).zip tops).flatMap (bandSteps buildings walls) := by
  induction tops generalizing bottom with
  | nil => rfl
  | cons top rest later =>
    rw [planFrom, later, List.zip_cons_cons, List.flatMap_cons]
    rfl

theorem map_snd_bands (bottom : Float) (tops : List Float) :
    ((bottom :: tops).zip tops).map Prod.snd = tops :=
  List.map_snd_zip (by simp)

theorem exists_band_iff (bottom top : Float) (tops : List Float) :
    (∃ low, (low, top) ∈ (bottom :: tops).zip tops) ↔ top ∈ tops := by
  conv_rhs => rw [← map_snd_bands bottom tops]
  simp

section Members

variable (buildings : List Building) (walls : List Wall)

theorem mem_wallSteps_iff (bottom top : Float) (step : Step) :
    step ∈ wallSteps buildings.toArray walls bottom top ↔
      ∃ side ∈ walls, (buildings[side.building]?).any (stands · top) = true ∧
        step = .wall side bottom top := by
  simp only [wallSteps, List.mem_map, List.mem_filter, List.getElem?_toArray, and_assoc]
  exact exists_congr fun side => and_congr_right' (and_congr_right' eq_comm)

theorem mem_roofSteps_iff (top : Float) (step : Step) :
    step ∈ roofSteps buildings.toArray top ↔
      ∃ index, (buildings[index]?).any (·.height == top) = true ∧ step = .roof index top := by
  rw [roofSteps, List.mem_map]
  constructor
  · intro drawn
    obtain ⟨⟨building, index⟩, kept, same⟩ := drawn
    obtain ⟨numbered, reached⟩ := List.mem_filter.mp kept
    refine ⟨index, ?_, same.symm⟩
    rw [List.mem_zipIdx_iff_getElem?.mp numbered]
    exact reached
  · intro drawn
    obtain ⟨index, reached, same⟩ := drawn
    obtain ⟨building, found, at_top⟩ := (Option.any_eq_true _ _).mp reached
    exact ⟨(building, index),
      List.mem_filter.mpr ⟨List.mem_zipIdx_iff_getElem?.mpr found, at_top⟩, same.symm⟩

variable (bottom : Float) (tops : List Float)

theorem roof_mem_iff (index : Nat) (top : Float) :
    .roof index top ∈ planFrom buildings.toArray walls bottom tops ↔
      (buildings[index]?).any (·.height == top) = true ∧ top ∈ tops := by
  rw [planFrom_eq_flatMap, List.mem_flatMap]
  constructor
  · intro drawn
    obtain ⟨band, member, inside⟩ := drawn
    rcases List.mem_append.mp inside with wallStep | roofStep
    · obtain ⟨_, _, _, same⟩ := (mem_wallSteps_iff _ _ _ _ _).mp wallStep
      cases same
    · obtain ⟨_, reached, same⟩ := (mem_roofSteps_iff _ _ _).mp roofStep
      obtain ⟨rfl, rfl⟩ := Step.roof.inj same
      exact ⟨reached, (List.of_mem_zip member).2⟩
  · intro drawn
    obtain ⟨reached, member⟩ := drawn
    obtain ⟨low, band⟩ := (exists_band_iff bottom top tops).mpr member
    exact ⟨(low, top), band,
      List.mem_append_right _ ((mem_roofSteps_iff _ _ _).mpr ⟨index, reached, rfl⟩)⟩

theorem wall_mem_iff (side : Wall) (top : Float) :
    (∃ low, .wall side low top ∈ planFrom buildings.toArray walls bottom tops) ↔
      side ∈ walls ∧ (buildings[side.building]?).any (stands · top) = true ∧ top ∈ tops := by
  simp only [planFrom_eq_flatMap, List.mem_flatMap]
  constructor
  · intro drawn
    obtain ⟨low, band, member, inside⟩ := drawn
    rcases List.mem_append.mp inside with wallStep | roofStep
    · obtain ⟨_, known, standing, same⟩ := (mem_wallSteps_iff _ _ _ _ _).mp wallStep
      obtain ⟨rfl, rfl, rfl⟩ := Step.wall.inj same
      exact ⟨known, standing, (List.of_mem_zip member).2⟩
    · obtain ⟨_, _, same⟩ := (mem_roofSteps_iff _ _ _).mp roofStep
      cases same
  · intro drawn
    obtain ⟨known, standing, member⟩ := drawn
    obtain ⟨low, band⟩ := (exists_band_iff bottom top tops).mpr member
    exact ⟨low, (low, top), band,
      List.mem_append_left _ ((mem_wallSteps_iff _ _ _ _ _).mpr ⟨side, known, standing, rfl⟩)⟩

end Members

section Order

variable (buildings : List Building)

theorem precedes_of_lt (walls : List Wall) (earlier later : Step)
    (left : earlier.top.isNaN = false) (right : later.top.isNaN = false)
    (less : ordinal earlier.top < ordinal later.top) : Step.Precedes walls earlier later := by
  constructor
  · exact (le_iff _ _ left right).mpr less.le
  · intro equal
    exact absurd ((beq_iff _ _ left right).mp equal) less.ne

theorem precedes_band (band : Float × Float) (number : band.2.isNaN = false) :
    (bandSteps buildings.toArray (Wall.ofBuildings buildings) band).Pairwise
      (Step.Precedes (Wall.ofBuildings buildings)) := by
  have at_top : band.2 ≤ band.2 := (le_iff _ _ number number).mpr le_rfl
  rw [bandSteps, List.pairwise_append]
  refine ⟨?_, ?_, ?_⟩
  · apply List.pairwise_map.mpr
    apply List.Pairwise.filter
    apply ((Wall.ofBuildings_positions buildings).and (Wall.ofBuildings_nearing buildings)).imp
    exact fun both => ⟨at_top, fun _ => both⟩
  · apply List.pairwise_map.mpr
    apply List.Pairwise.filter
    apply (zipIdx_rising buildings 0).imp
    exact fun less => ⟨at_top, fun _ => less⟩
  · intro wallStep first roofStep second
    obtain ⟨_, _, _, rfl⟩ := (mem_wallSteps_iff _ _ _ _ _).mp first
    obtain ⟨_, _, rfl⟩ := (mem_roofSteps_iff _ _ _).mp second
    exact ⟨at_top, fun _ => trivial⟩

theorem top_of_mem_band (walls : List Wall) (band : Float × Float) (step : Step)
    (member : step ∈ bandSteps buildings.toArray walls band) : step.top = band.2 := by
  rcases List.mem_append.mp member with wallStep | roofStep
  · obtain ⟨_, _, _, rfl⟩ := (mem_wallSteps_iff _ _ _ _ _).mp wallStep
    rfl
  · obtain ⟨_, _, rfl⟩ := (mem_roofSteps_iff _ _ _).mp roofStep
    rfl

theorem precedes_planFrom (bottom : Float) (tops : List Float)
    (numbers : ∀ top ∈ tops, top.isNaN = false) (rising : tops.Pairwise (ordinal · < ordinal ·)) :
    (planFrom buildings.toArray (Wall.ofBuildings buildings) bottom tops).Pairwise
      (Step.Precedes (Wall.ofBuildings buildings)) := by
  rw [planFrom_eq_flatMap, List.pairwise_flatMap]
  constructor
  · intro band member
    exact precedes_band buildings band (numbers band.2 (List.of_mem_zip member).2)
  · rw [← map_snd_bands bottom tops, List.pairwise_map] at rising
    apply rising.imp_of_mem
    intro lower upper lower_member upper_member less earlier first later second
    have lower_top := top_of_mem_band buildings _ lower earlier first
    have upper_top := top_of_mem_band buildings _ upper later second
    apply precedes_of_lt
    · rw [lower_top]
      exact numbers lower.2 (List.of_mem_zip lower_member).2
    · rw [upper_top]
      exact numbers upper.2 (List.of_mem_zip upper_member).2
    · rwa [lower_top, upper_top]

end Order

theorem same_roofSteps (buildings : List Building) (top top' : Float)
    (same_top : (top == top') = true) :
    List.Forall₂ Step.Same (roofSteps buildings.toArray top)
      (roofSteps buildings.toArray top') := by
  have reached (height : Float) : (height == top) = (height == top') := BEq.congr_right same_top
  simp only [roofSteps, reached]
  rw [List.forall₂_map_left_iff, List.forall₂_map_right_iff, List.forall₂_same]
  exact fun numbered _ => ⟨rfl, same_top⟩

section Buildings

variable (buildings : List Building)
  (numbers : ∀ building ∈ buildings, building.minHeight.isNaN = false ∧
    building.height.isNaN = false)

include numbers

theorem roof_not_before_wall (walls : List Wall) (bottom : Float) (tops : List Float)
    (top_numbers : ∀ top ∈ tops, top.isNaN = false) (earlier later : Step)
    (first : earlier ∈ planFrom buildings.toArray walls bottom tops)
    (second : later ∈ planFrom buildings.toArray walls bottom tops)
    (precedes : Step.Precedes walls earlier later) : ¬ Step.RoofOver earlier later := by
  intro own
  cases earlier with
  | wall => exact own
  | roof index top =>
    cases later with
    | roof => exact own
    | wall side low high =>
      -- The wall ends at its roof at the latest, so both are at one height, where walls come first.
      obtain rfl : side.building = index := own
      obtain ⟨reached, top_member⟩ := (roof_mem_iff buildings walls bottom tops _ top).mp first
      obtain ⟨-, standing, high_member⟩ :=
        (wall_mem_iff buildings walls bottom tops side high).mp ⟨low, second⟩
      obtain ⟨building, found, at_top⟩ := (Option.any_eq_true _ _).mp reached
      rw [found, Option.any_some] at standing
      obtain ⟨low_number, high_number⟩ := numbers building (List.mem_of_getElem? found)
      have top_number := top_numbers top top_member
      have above_number := top_numbers high high_member
      rw [stands_eq building low_number high_number high above_number, Bool.and_eq_true,
        decide_eq_true_eq, le_iff _ _ above_number high_number] at standing
      rw [beq_iff _ _ high_number top_number] at at_top
      have rises := (le_iff _ _ top_number above_number).mp precedes.top_le
      refine precedes.at_one_top ((beq_iff _ _ top_number above_number).mpr ?_)
      change ordinal top ≤ ordinal high at rises
      omega

theorem same_wallSteps (walls : List Wall) (bottom bottom' top top' : Float)
    (same_bottom : (bottom == bottom') = true) (same_top : (top == top') = true) :
    List.Forall₂ Step.Same (wallSteps buildings.toArray walls bottom top)
      (wallSteps buildings.toArray walls bottom' top') := by
  have kept : walls.filter (fun wall => (buildings.toArray[wall.building]?).any (stands · top)) =
      walls.filter fun wall => (buildings.toArray[wall.building]?).any (stands · top') := by
    apply List.filter_congr
    intro wall _
    rw [List.getElem?_toArray]
    cases found : buildings[wall.building]? with
    | none => rw [Option.any_none, Option.any_none]
    | some building =>
      obtain ⟨low_number, high_number⟩ := numbers building (List.mem_of_getElem? found)
      rw [Option.any_some, Option.any_some]
      exact stands_congr building low_number high_number top top' same_top
  rw [wallSteps, wallSteps, kept, List.forall₂_map_left_iff, List.forall₂_map_right_iff,
    List.forall₂_same]
  exact fun wall _ => ⟨rfl, same_bottom, same_top⟩

theorem same_planFrom (walls : List Wall) (bottom bottom' : Float) (tops tops' : List Float)
    (same_bottom : (bottom == bottom') = true)
    (same_tops : List.Forall₂ (fun a b => (a == b) = true) tops tops') :
    List.Forall₂ Step.Same (planFrom buildings.toArray walls bottom tops)
      (planFrom buildings.toArray walls bottom' tops') := by
  induction same_tops generalizing bottom bottom' with
  | nil => exact .nil
  | cons same_top _ later =>
    rw [planFrom, planFrom]
    apply List.rel_append
    · exact List.rel_append
        (same_wallSteps buildings numbers walls _ _ _ _ same_bottom same_top)
        (same_roofSteps buildings _ _ same_top)
    · exact later _ _ same_top

end Buildings

end Cartograph.Bands

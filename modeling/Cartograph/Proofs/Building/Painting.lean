import Cartograph.Proofs.Building.Plan
import Cartograph.Proofs.Building.Tiling

/-! The painter's picture of extruded buildings. Every roof and every wall is drawn as often as
the heights of the scene ask for, and in its turn. -/

namespace Cartograph.Bands

open Number

namespace Step

def isRoofOf (index : Nat) : Step → Bool
  | .wall .. => false
  | .roof building _ => building == index

def isWallAt (index part : Nat) (height : Float) : Step → Bool
  | .wall side _ top => side.isPart index part && top == height
  | .roof .. => false

theorem isRoofOf_iff (index : Nat) (step : Step) :
    step.isRoofOf index = true ↔ ∃ top, step = .roof index top := by
  cases step with
  | wall => simp [isRoofOf]
  | roof => simp [isRoofOf]

theorem isWallAt_iff (index part : Nat) (height : Float) (step : Step) :
    step.isWallAt index part height = true ↔
      ∃ segment low top, step = .wall ⟨segment, index, part⟩ low top ∧ (top == height) = true := by
  cases step with
  | roof => simp [isWallAt]
  | wall side low top =>
    rw [isWallAt, Bool.and_eq_true, Wall.isPart_iff]
    constructor
    · intro drawn
      obtain ⟨⟨rfl, rfl⟩, at_height⟩ := drawn
      exact ⟨side.segment, low, top, rfl, at_height⟩
    · intro drawn
      obtain ⟨segment, low, top, same, at_height⟩ := drawn
      obtain ⟨rfl, rfl, rfl⟩ := Step.wall.inj same
      exact ⟨⟨rfl, rfl⟩, at_height⟩

end Step

structure Painted (heights : List Float) (buildings : List Building) (steps : List Step) :
    Prop where
  roofs_once : ∀ index, steps.countP (Step.isRoofOf index) =
    if (buildings[index]?).any fun building =>
      building.height.isFinite && heights.any (building.height == ·) then 1 else 0
  walls_once : ∀ index part top, steps.countP (Step.isWallAt index part top) =
    if (heights.any fun height => height.isFinite && top == height) &&
      (buildings[index]?).any fun building => part < building.parts.length &&
        building.hasWalls && building.minHeight < top && top ≤ building.height then 1 else 0
  walls_known : ∀ side bottom top, Step.wall side bottom top ∈ steps →
    side ∈ Wall.ofBuildings buildings
  in_order : steps.Pairwise (Step.Precedes (Wall.ofBuildings buildings))
  roofs_last : steps.Pairwise fun earlier later => ¬ Step.RoofOver earlier later

theorem countP_eq_ite {α : Type} (related : α → α → Prop) (kept : α → Bool) (entries : List α)
    (ordered : entries.Pairwise related)
    (once : ∀ a ∈ entries, ∀ b ∈ entries, kept a = true → kept b = true → ¬ related a b) :
    entries.countP kept = if entries.any kept then 1 else 0 := by
  induction entries with
  | nil => rfl
  | cons a rest later =>
    obtain ⟨first, rest_ordered⟩ := List.pairwise_cons.mp ordered
    have rest_once := later rest_ordered fun b b_member c c_member =>
      once b (List.mem_cons_of_mem a b_member) c (List.mem_cons_of_mem a c_member)
    rw [List.countP_cons, List.any_cons]
    by_cases keeps : kept a = true
    · have none : rest.countP kept = 0 := by
        rw [List.countP_eq_zero]
        intro b member kept_b
        exact once a List.mem_cons_self b (List.mem_cons_of_mem a member) keeps kept_b
          (first b member)
      simp [none, keeps]
    · simp [rest_once, keeps]

section Counts

variable (buildings : List Building) (bottom : Float) (tops : List Float)

theorem any_roof (walls : List Wall) (index : Nat) :
    (planFrom buildings.toArray walls bottom tops).any (Step.isRoofOf index) =
      (buildings[index]?).any fun building => tops.any (building.height == ·) := by
  rw [Bool.eq_iff_iff, List.any_eq_true, Option.any_eq_true]
  constructor
  · intro drawn
    obtain ⟨step, member, roof⟩ := drawn
    obtain ⟨top, rfl⟩ := (Step.isRoofOf_iff index step).mp roof
    obtain ⟨reached, top_member⟩ := (roof_mem_iff buildings walls bottom tops index top).mp member
    obtain ⟨building, found, at_top⟩ := (Option.any_eq_true _ _).mp reached
    exact ⟨building, found, List.any_eq_true.mpr ⟨top, top_member, at_top⟩⟩
  · intro reached
    obtain ⟨building, found, at_top⟩ := reached
    obtain ⟨top, top_member, equal⟩ := List.any_eq_true.mp at_top
    refine ⟨.roof index top, ?_, (Step.isRoofOf_iff _ _).mpr ⟨top, rfl⟩⟩
    rw [roof_mem_iff, found]
    exact ⟨equal, top_member⟩

theorem any_wall (index part : Nat) (height : Float) :
    (planFrom buildings.toArray (Wall.ofBuildings buildings) bottom tops).any
        (Step.isWallAt index part height) =
      (buildings[index]?).any fun building => part < building.parts.length &&
        tops.any fun top => top == height && stands building top := by
  rw [Bool.eq_iff_iff, List.any_eq_true, Option.any_eq_true]
  constructor
  · intro drawn
    obtain ⟨step, member, wall⟩ := drawn
    obtain ⟨segment, low, top, rfl, at_height⟩ := (Step.isWallAt_iff index part height step).mp wall
    obtain ⟨known, standing, top_member⟩ := (wall_mem_iff _ _ bottom tops _ top).mp ⟨low, member⟩
    obtain ⟨building, found, side⟩ := (Wall.mem_ofBuildings_iff _ _).mp known
    rw [found] at standing
    obtain ⟨inside, -⟩ := List.getElem?_eq_some_iff.mp side
    refine ⟨building, found, Bool.and_eq_true_iff.mpr ⟨decide_eq_true inside, ?_⟩⟩
    exact List.any_eq_true.mpr ⟨top, top_member, Bool.and_eq_true_iff.mpr ⟨at_height, standing⟩⟩
  · intro standing
    obtain ⟨building, found, both⟩ := standing
    obtain ⟨inside, at_top⟩ := Bool.and_eq_true_iff.mp both
    obtain ⟨top, top_member, rest⟩ := List.any_eq_true.mp at_top
    obtain ⟨at_height, standing⟩ := Bool.and_eq_true_iff.mp rest
    have side := List.getElem?_eq_getElem (of_decide_eq_true inside)
    have known := (Wall.mem_ofBuildings_iff buildings ⟨_, index, part⟩).mpr ⟨building, found, side⟩
    obtain ⟨low, member⟩ := (wall_mem_iff buildings _ bottom tops ⟨_, index, part⟩ top).mpr
      ⟨known, by rwa [found], top_member⟩
    exact ⟨_, member, (Step.isWallAt_iff _ _ _ _).mpr ⟨_, low, top, rfl, at_height⟩⟩

theorem any_stands (building : Building) (low_number : building.minHeight.isNaN = false)
    (high_number : building.height.isNaN = false) (height : Float) :
    (tops.any fun top => top == height && stands building top) =
      (tops.any (height == ·) && (building.hasWalls && decide (building.minHeight < height) &&
        decide (height ≤ building.height))) := by
  rw [List.and_any_distrib_right]
  apply List.any_congr rfl
  intro top
  rw [BEq.comm]
  by_cases equal : (height == top) = true
  · rw [← stands_congr building low_number high_number height top equal,
      stands_eq building low_number high_number height (numbers_of_beq height top equal).1]
  · simp [equal]

end Counts

section Uniqueness

variable (buildings : List Building) (bottom : Float) (tops : List Float)
  (top_numbers : ∀ top ∈ tops, top.isNaN = false) (rising : tops.Pairwise (ordinal · < ordinal ·))

include top_numbers rising

theorem countP_roof (index : Nat) :
    (planFrom buildings.toArray (Wall.ofBuildings buildings) bottom tops).countP
        (Step.isRoofOf index) =
      if (buildings[index]?).any fun building => tops.any (building.height == ·) then 1 else 0 := by
  rw [← any_roof buildings bottom tops (Wall.ofBuildings buildings)]
  apply countP_eq_ite _ _ _ (precedes_planFrom buildings bottom tops top_numbers rising)
  intro earlier first later second earlier_roof later_roof precedes
  obtain ⟨top, rfl⟩ := (Step.isRoofOf_iff index earlier).mp earlier_roof
  obtain ⟨top', rfl⟩ := (Step.isRoofOf_iff index later).mp later_roof
  obtain ⟨reached, top_member⟩ := (roof_mem_iff _ _ _ _ _ _).mp first
  obtain ⟨reached', top_member'⟩ := (roof_mem_iff _ _ _ _ _ _).mp second
  obtain ⟨building, found, at_top⟩ := (Option.any_eq_true _ _).mp reached
  rw [found, Option.any_some] at reached'
  have equal : (top == top') = true := BEq.trans (BEq.symm at_top) reached'
  exact lt_irrefl index (precedes.at_one_top equal)

theorem countP_wall (numbers : ∀ building ∈ buildings, building.minHeight.isNaN = false ∧
      building.height.isNaN = false) (index part : Nat) (height : Float) :
    (planFrom buildings.toArray (Wall.ofBuildings buildings) bottom tops).countP
        (Step.isWallAt index part height) =
      if tops.any (height == ·) && (buildings[index]?).any fun building =>
        part < building.parts.length && building.hasWalls && building.minHeight < height &&
          height ≤ building.height then 1 else 0 := by
  have drawn : (planFrom buildings.toArray (Wall.ofBuildings buildings) bottom tops).any
      (Step.isWallAt index part height) =
        (tops.any (height == ·) && (buildings[index]?).any fun building =>
          part < building.parts.length && building.hasWalls && building.minHeight < height &&
            height ≤ building.height) := by
    rw [any_wall]
    cases found : buildings[index]? with
    | none => simp
    | some building =>
      obtain ⟨low_number, high_number⟩ := numbers building (List.mem_of_getElem? found)
      rw [Option.any_some, Option.any_some, any_stands tops building low_number high_number]
      simp only [Bool.and_assoc, Bool.and_left_comm]
  -- One step is there, and a second one would have to stand before itself.
  rw [← drawn]
  apply countP_eq_ite _ _ _ (precedes_planFrom buildings bottom tops top_numbers rising)
  intro earlier first later second earlier_wall later_wall precedes
  obtain ⟨segment, low, top, rfl, at_height⟩ := (Step.isWallAt_iff _ _ _ _).mp earlier_wall
  obtain ⟨segment', low', top', rfl, at_height'⟩ := (Step.isWallAt_iff _ _ _ _).mp later_wall
  have equal : (top == top') = true := BEq.trans at_height (BEq.symm at_height')
  exact lt_irrefl _ (precedes.at_one_top equal).1

end Uniqueness

theorem plan_painted (heights : List Float) (buildings : List Building)
    (numbers : ∀ building ∈ buildings, building.minHeight.isNaN = false ∧
      building.height.isNaN = false) :
    Painted heights buildings (plan heights buildings (Wall.ofBuildings buildings)) ∧
      ∀ others, SameEntries heights others →
        List.Forall₂ Step.Same (plan heights buildings (Wall.ofBuildings buildings))
          (plan others buildings (Wall.ofBuildings buildings)) := by
  obtain ⟨rising, finite, -⟩ := levels_normalize heights
  have top_numbers (top : Float) (member : top ∈ normalize heights) : top.isNaN = false :=
    number_of_isFinite top (finite top member)
  have ordered := precedes_planFrom buildings 0 (normalize heights) top_numbers rising
  constructor
  · constructor
    · intro index
      rw [plan, countP_roof buildings 0 _ top_numbers rising]
      simp only [any_normalize, any_finite]
    · intro index part top
      rw [plan, countP_wall buildings 0 _ top_numbers rising numbers, any_normalize]
    · intro side low top member
      exact ((wall_mem_iff _ _ _ _ side top).mp ⟨low, member⟩).1
    · exact ordered
    · apply ordered.imp_of_mem
      intro earlier later first second
      exact roof_not_before_wall buildings numbers _ 0 _ top_numbers earlier later first second
  · intro others same
    exact same_planFrom buildings numbers _ 0 0 _ _ (by decide +kernel)
      (same_normalize heights others same)

def beside : List Building := [{ raised with height := 2, minHeight := 0 }, raised]

theorem beside_painted :
    (∀ building ∈ beside, building.minHeight.isNaN = false ∧ building.height.isNaN = false) ∧
      SameEntries [2, 3, 1, 2] [1, 2, 3] ∧
      Painted [2, 3, 1, 2] beside (plan [2, 3, 1, 2] beside (Wall.ofBuildings beside)) ∧
      List.Forall₂ Step.Same (plan [2, 3, 1, 2] beside (Wall.ofBuildings beside))
        (plan [1, 2, 3] beside (Wall.ofBuildings beside)) := by
  have numbers : ∀ building ∈ beside, building.minHeight.isNaN = false ∧
      building.height.isNaN = false := by
    intro building member
    rcases List.mem_pair.mp member with rfl | rfl <;> decide +kernel
  have listed (a b c x : Float) : x ∈ [b, c, a, b] ↔ x ∈ [a, b, c] := by
    simp only [List.mem_cons, List.not_mem_nil, or_false]
    tauto
  have entries : SameEntries [2, 3, 1, 2] [1, 2, 3] :=
    sameEntries_of_mem_iff _ _ fun x _ => listed 1 2 3 x
  obtain ⟨painted, same⟩ := plan_painted [2, 3, 1, 2] beside numbers
  exact ⟨numbers, entries, painted, same _ entries⟩

end Cartograph.Bands

import Mathlib
import Cartograph.Building.Bands
import Cartograph.Proofs.Building.Segments
import Cartograph.Proofs.Order.Sorting

/-! The order in which walls are drawn. Every part of every building stands in it once, and the
middles of the walls never come nearer from the front of the list to its end. -/

namespace Cartograph

namespace Wall

def isPart (building part : Nat) (wall : Wall) : Bool :=
  wall.building == building && wall.part == part

def position (walls : List Wall) (wall : Wall) : Nat :=
  walls.findIdx (isPart wall.building wall.part)

/-- The middle of the later wall is not above that of the earlier one, in the order of patterns
and, where both are numbers, as numbers. -/
def Nearing (earlier later : Wall) : Prop :=
  earlier.segment.middle.place ≤ later.segment.middle.place ∧
    (earlier.segment.middle.isNotANumber = false → later.segment.middle.isNotANumber = false →
      earlier.segment.middle.toFloat ≤ later.segment.middle.toFloat)

theorem isPart_iff (building part : Nat) (wall : Wall) :
    wall.isPart building part = true ↔ wall.building = building ∧ wall.part = part := by
  rw [isPart, Bool.and_eq_true, beq_iff_eq, beq_iff_eq]

theorem mem_ofBuildings_iff (buildings : List Building) (wall : Wall) :
    wall ∈ ofBuildings buildings ↔
      ∃ building, buildings[wall.building]? = some building ∧
        building.parts[wall.part]? = some wall.segment := by
  rw [ofBuildings, sort, (List.mergeSort_perm _ _).mem_iff, List.mem_flatMap]
  constructor
  · intro listed
    obtain ⟨⟨building, index⟩, numbered, member⟩ := listed
    obtain ⟨⟨segment, part⟩, inside, rfl⟩ := List.mem_map.mp member
    exact ⟨building, List.mem_zipIdx_iff_getElem?.mp numbered,
      List.mem_zipIdx_iff_getElem?.mp inside⟩
  · intro known
    obtain ⟨building, found, inside⟩ := known
    exact ⟨(building, wall.building), List.mem_zipIdx_iff_getElem?.mpr found,
      List.mem_map.mpr ⟨(wall.segment, wall.part), List.mem_zipIdx_iff_getElem?.mpr inside, rfl⟩⟩

theorem listed_rising (buildings : List Building) :
    (buildings.zipIdx.flatMap fun (building, index) =>
      building.parts.zipIdx.map fun (segment, part) => (⟨segment, index, part⟩ : Wall)).Pairwise
        fun a b => (compare a.building b.building).then (compare a.part b.part) = .lt := by
  rw [List.pairwise_flatMap]
  constructor
  · intro ⟨building, index⟩ _
    apply List.pairwise_map.mpr
    apply (zipIdx_rising building.parts 0).imp
    intro first second less
    exact Ordering.then_eq_lt.mpr
      (.inr ⟨Nat.compare_eq_eq.mpr rfl, Nat.compare_eq_lt.mpr less⟩)
  · apply (zipIdx_rising buildings 0).imp
    intro ⟨_, index⟩ ⟨_, index'⟩ less a left b right
    obtain ⟨_, -, rfl⟩ := List.mem_map.mp left
    obtain ⟨_, -, rfl⟩ := List.mem_map.mp right
    exact Ordering.then_eq_lt.mpr (.inl (Nat.compare_eq_lt.mpr less))

theorem ofBuildings_distinct (buildings : List Building) :
    (ofBuildings buildings).Pairwise fun a b => b.isPart a.building a.part = false := by
  have symmetric {a b : Wall} (apart : b.isPart a.building a.part = false) :
      a.isPart b.building b.part = false := by
    rw [← Bool.not_eq_true, isPart_iff] at apart ⊢
    exact fun same => apart ⟨same.1.symm, same.2.symm⟩
  rw [ofBuildings, sort, (List.mergeSort_perm _ _).pairwise_iff symmetric]
  apply (listed_rising buildings).imp
  intro a b before
  rw [← Bool.not_eq_true, isPart_iff]
  rintro ⟨building, part⟩
  rw [building, part, Nat.compare_eq_eq.mpr rfl, Nat.compare_eq_eq.mpr rfl] at before
  cases before

theorem position_getElem (walls : List Wall)
    (distinct : walls.Pairwise fun a b => b.isPart a.building a.part = false) (index : Nat)
    (inside : index < walls.length) : position walls walls[index] = index := by
  rw [position, List.findIdx_eq inside]
  refine ⟨(isPart_iff _ _ _).mpr ⟨rfl, rfl⟩, ?_⟩
  intro earlier before
  have apart := List.pairwise_iff_getElem.mp distinct earlier index (before.trans inside) inside
    before
  rw [← Bool.not_eq_true, isPart_iff] at apart ⊢
  exact fun same => apart ⟨same.1.symm, same.2.symm⟩

theorem ofBuildings_positions (buildings : List Building) :
    (ofBuildings buildings).Pairwise fun a b =>
      position (ofBuildings buildings) a < position (ofBuildings buildings) b := by
  rw [List.pairwise_iff_getElem]
  intro first second left right less
  rwa [position_getElem _ (ofBuildings_distinct buildings),
    position_getElem _ (ofBuildings_distinct buildings)]

theorem nearing_of_place (a b : Wall)
    (before : a.segment.middle.place ≤ b.segment.middle.place) : Nearing a b := by
  refine ⟨before, ?_⟩
  intro left right
  obtain ⟨x, x_number, x_eq⟩ := Number.Rank.middle_eq_ofFloat _ _ left
  obtain ⟨y, y_number, y_eq⟩ := Number.Rank.middle_eq_ofFloat _ _ right
  rw [Segment.middle, x_eq, Segment.middle, y_eq] at before ⊢
  change Float.ofBits x.toBits ≤ Float.ofBits y.toBits
  rw [Float.ofBits_toBits, Float.ofBits_toBits, Number.le_iff x y x_number y_number]
  exact Number.ordinal_le_of_rank x y x_number y_number ((Number.isLE_compare_iff x y).mpr before)

theorem ofBuildings_nearing (buildings : List Building) :
    (ofBuildings buildings).Pairwise Nearing := by
  have sorted : (ofBuildings buildings).Pairwise fun a b =>
      (a.segment.compare b.segment).isLE = true := by
    apply List.pairwise_mergeSort
    · intro a b c
      exact Segment.isLE_compare_trans _ _ _
    · intro a b
      rw [Bool.or_eq_true]
      exact Segment.isLE_compare_total _ _
  exact sorted.imp fun before => nearing_of_place _ _ (Segment.place_middle_le _ _ before)

end Wall

end Cartograph

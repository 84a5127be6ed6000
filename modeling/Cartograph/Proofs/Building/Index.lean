import Mathlib
import Cartograph.Proofs.Building.Tiling
import Cartograph.Proofs.Building.Walls
import Cartograph.Proofs.Figure.Area

/-! All walls of a scene in one list. The parts of a building are the edges of its rings, sorted
from far to near, and the list holds each part of each building once, under the number that it has
after sorting. Both sorts are stable, so equal segments stay in the order of rings and buildings. -/

namespace Cartograph

open Number

namespace Segment

def SortedFrom (listed sorted : List Segment) : Prop :=
  ∃ numbered : List (Segment × Nat),
    numbered.Perm listed.zipIdx ∧ numbered.map Prod.fst = sorted ∧
      numbered.Pairwise fun a b => (a.1.compare b.1).then (compare a.2 b.2) = .lt

theorem sortedFrom_sort (segments : List Segment) : SortedFrom segments (sort segments) := by
  have sorted := Sorting.pairwise_mergeSort_compare
    (Ordering.byKey (fun entry : Segment × Nat => entry.1) Segment.compare) _ _
    (zipIdx_rising segments 0)
  have kept : (segments.zipIdx.mergeSort fun a b => (a.1.compare b.1).isLE).map Prod.fst =
      (segments.zipIdx.map Prod.fst).mergeSort fun a b => (a.compare b).isLE :=
    List.map_mergeSort fun _ _ _ _ => rfl
  rw [List.zipIdx_map_fst] at kept
  refine ⟨_, List.mergeSort_perm _ _, kept, sorted.imp ?_⟩
  intro a b
  rw [Ordering.then_eq_lt, Nat.compare_eq_lt]
  exact id

end Segment

namespace Building

/-- The edges from each point of a ring to the next one. None leads back to the first point. -/
def edges (rings : List (List (Point Rank))) : List Segment :=
  rings.flatMap fun ring => (ring.zip ring.tail).map fun (p, q) => Segment.between p q

theorem wallsOf_eq (rings : List (List (Point Rank))) :
    wallsOf rings = Segment.sort (edges rings) := by
  simp only [wallsOf, edges, Ring.steps_eq_zip]

theorem parts_ofRings (tags : Tags) (inners outers : List (List (Point Rank)))
    (scheme : ColorScheme) (extrusion : Extrusion) :
    (ofRings tags inners outers scheme extrusion).parts =
      Segment.sort (edges ((Ring.normalizeBy Point.floats inners outers).1 ++
        (Ring.normalizeBy Point.floats inners outers).2)) :=
  wallsOf_eq _

end Building

namespace Wall

protected def compare (a b : Wall) : Ordering :=
  (a.segment.compare b.segment).then
    ((compare a.building b.building).then (compare a.part b.part))

variable (buildings : List Building)

theorem ofBuildings_rising : (ofBuildings buildings).Pairwise (Wall.compare · · = .lt) := by
  have sorted := Sorting.pairwise_mergeSort_compare
    (Ordering.byKey (fun wall : Wall => wall.segment) Segment.compare) _ _
    (listed_rising buildings)
  exact sorted.imp Ordering.then_eq_lt.mpr

theorem filter_eq_toList (index part : Nat) :
    (ofBuildings buildings).filter (fun wall => wall.building = index ∧ wall.part = part) =
      ((buildings[index]?.bind (·.parts[part]?)).map (⟨·, index, part⟩)).toList := by
  cases side : buildings[index]?.bind (·.parts[part]?) with
  | none =>
    rw [Option.map_none, Option.toList_none, List.filter_eq_nil_iff]
    intro wall member same
    obtain ⟨rfl, rfl⟩ := of_decide_eq_true same
    obtain ⟨building, found, inside⟩ := (mem_ofBuildings_iff buildings wall).mp member
    simp [found, inside] at side
  | some segment =>
    obtain ⟨building, found, inside⟩ := Option.bind_eq_some_iff.mp side
    exact Bands.filter_ofBuildings buildings index part building segment found inside

end Wall

/-- The list of walls holds every edge of the rings of every building once, from far to near. -/
theorem walls_listed (tags : Tags) (inners outers : List (List (Point Rank)))
    (scheme : ColorScheme) (extrusion : Extrusion) (buildings : List Building) :
    (let rings := Ring.normalizeBy Point.floats inners outers
      let building := Building.ofRings tags inners outers scheme extrusion
      Segment.SortedFrom (Building.edges (rings.1 ++ rings.2)) building.parts ∧
        building.figure.inners = rings.1.map (List.map Point.floats) ∧
        building.figure.outers = rings.2.map (List.map Point.floats) ∧
        building.figure = Figure.ofRings tags (inners.map (List.map Point.floats))
          (outers.map (List.map Point.floats))) ∧
    (∀ index part,
      (Wall.ofBuildings buildings).filter (fun wall => wall.building = index ∧ wall.part = part) =
        ((buildings[index]?.bind (·.parts[part]?)).map (⟨·, index, part⟩)).toList) ∧
    (Wall.ofBuildings buildings).Pairwise (Wall.compare · · = .lt) := by
  refine ⟨⟨?_, rfl, rfl, ?_⟩, Wall.filter_eq_toList buildings, Wall.ofBuildings_rising buildings⟩
  · rw [Building.parts_ofRings]
    exact Segment.sortedFrom_sort _
  · rw [Figure.ofRings, Ring.normalizeBy_place]
    rfl

end Cartograph

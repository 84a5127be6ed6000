import Mathlib
import Cartograph.Proofs.Number.Order
import Cartograph.Proofs.Order.Sorting
import Cartograph.Proofs.Placement.Occupancy
import Cartograph.Proofs.Rendering.Layers
import Cartograph.Canvas.Drawing

/-! The order in which the parts of a scene are drawn. Figures, roads and features are drawn by
keys of their own, with their places in the scene for the last word. -/

namespace Cartograph

open Number Sorting

namespace StyledFigure

/-- Figures are sorted by layer and priority. -/
def sortKey (styled : StyledFigure) : Int ×ₗ Int :=
  toLex ((Rank.ofFloat styled.layer).place, styled.priority.place)

theorem isLE_compare_iff (a b : StyledFigure) :
    (a.compare b).isLE = true ↔ a.sortKey ≤ b.sortKey := by
  rw [StyledFigure.compare, orderKey, orderKey, Rank.isLE_compareAll_cons,
    Rank.isLE_compareAll_cons, sortKey, sortKey, Prod.Lex.toLex_le_toLex, le_iff_lt_or_eq]
  simp [Rank.compareAll]

theorem compare_eq_iff (a b : StyledFigure) : a.compare b = .eq ↔ a.sortKey = b.sortKey := by
  rw [StyledFigure.compare, orderKey, orderKey, sortKey, sortKey, toLex_inj, Prod.mk.injEq]
  simp only [Rank.compareAll, Ordering.then_eq_eq, Rank.compare_eq_iff, and_true]

end StyledFigure

namespace Road

theorem isLE_compare_iff (a b : Road) :
    (a.compare b).isLE = true ↔ a.priority.place ≤ b.priority.place :=
  Rank.isLE_iff a.priority b.priority

theorem compare_eq_iff (a b : Road) :
    a.compare b = .eq ↔ a.priority.place = b.priority.place :=
  Rank.compare_eq_iff a.priority b.priority

end Road

namespace Feature

/-- Features are sorted from the highest priority down. -/
def sortKey (feature : Feature) : Intᵒᵈ := OrderDual.toDual feature.priority.place

theorem isLE_compare_iff (a b : Feature) :
    (a.compare b).isLE = true ↔ a.sortKey ≤ b.sortKey :=
  Rank.isLE_iff b.priority a.priority

theorem compare_eq_iff (a b : Feature) : a.compare b = .eq ↔ a.sortKey = b.sortKey :=
  (Rank.compare_eq_iff b.priority a.priority).trans eq_comm

end Feature

namespace Features

/-- A pass over some features: each of them draws in its turn, wherever it is laid out by then
and whatever the grid has become. -/
inductive Turns (attempt : Feature → Cursor → Board → Placed) :
    List Feature → List (Step Empty) → Prop
  | done : Turns attempt [] []
  | next (feature : Feature) (cursor : Cursor) (board : Board) {rest : List Feature}
    {later : List (Step Empty)} (others : Turns attempt rest later) :
    Turns attempt (feature :: rest)
      ((attempt feature cursor board).events.flatMap Event.steps ++ later)

theorem turns_run (attempt : Feature → Cursor → Board → Placed) (board : Board)
    (features : List Feature) (cursors : List (Feature × Cursor))
    (listed : cursors.map Prod.fst = features) :
    Turns attempt features ((Pass.run attempt board cursors).events.flatMap Event.steps) := by
  subst listed
  induction cursors generalizing board with
  | nil => exact .done
  | cons entry rest later =>
    rw [Pass.run, List.flatMap_append]
    exact .next entry.1 entry.2 board (later _)

end Features

namespace Scene

/-- The turn of a figure: under or over the roads, then by layer and priority, then by its place
in the scene. -/
def figureTurn (configuration : Configuration) (entry : StyledFigure × Nat) :
    Bool ×ₗ (Int ×ₗ Int) ×ₗ Nat :=
  toLex (!isUnderRoads configuration entry.1, Sorting.place StyledFigure.sortKey entry)

def roadTurn (entry : Road × Nat) : Int ×ₗ Nat := Sorting.place (·.priority.place) entry

def featureTurn (entry : Feature × Nat) : Intᵒᵈ ×ₗ Nat := Sorting.place Feature.sortKey entry

theorem groundSteps_in_turn (configuration : Configuration) (scene : Scene) :
    ∃ lower upper roads,
      InOrder (figureTurn configuration) scene.figures (lower ++ upper) ∧
      (∀ entry ∈ lower, isUnderRoads configuration entry.1 = true) ∧
      (∀ entry ∈ upper, isUnderRoads configuration entry.1 = false) ∧
      InOrder roadTurn scene.roads roads ∧
      groundSteps configuration scene = lower.map (·.1.step) ++
        (roads.filterMap (·.1.borderStep?) ++ roads.map (·.1.bodyStep)) ++
        upper.map (·.1.step) := by
  obtain ⟨figures, figures_perm, figures_rise, figures_eq⟩ :=
    mergeSort_eq_map StyledFigure.sortKey _ StyledFigure.isLE_compare_iff scene.figures
  obtain ⟨roads, roads_perm, roads_rise, roads_eq⟩ :=
    mergeSort_eq_map (·.priority.place) _ Road.isLE_compare_iff scene.roads
  let below (entry : StyledFigure × Nat) : Bool := isUnderRoads configuration entry.1
  refine ⟨figures.filter below, figures.filter (!below ·), roads, ?_, ?_, ?_, ?_, ?_⟩
  · apply inOrder_of_pairwise
    · exact (List.filter_append_perm below figures).trans figures_perm
    · exact pairwise_filter_append _ below figures figures_rise
  · intro entry member
    exact (List.mem_filter.mp member).2
  · intro entry member
    simpa [below] using (List.mem_filter.mp member).2
  · exact inOrder_of_pairwise _ _ _ roads_perm roads_rise
  · unfold groundSteps Road.steps
    rw [StyledFigure.sort, figures_eq, Road.sort, roads_eq, List.partition_eq_filter_filter]
    simp only [List.filter_map, List.map_map, List.filterMap_map]
    rfl

theorem features_in_turn (configuration : Configuration) (scene : Scene) :
    ∃ points, InOrder featureTurn scene.points points ∧ ∃ mains extras texts,
      Features.Turns Feature.placeMain (points.map Prod.fst) mains ∧
      Features.Turns Feature.placeExtras (points.map Prod.fst) extras ∧
      Features.Turns (Feature.placeTexts · configuration.labelMode) (points.map Prod.fst) texts ∧
      Category.nodes.steps configuration scene = mains ++ extras ++ texts := by
  obtain ⟨points, points_perm, points_rise, points_eq⟩ :=
    mergeSort_eq_map Feature.sortKey _ Feature.isLE_compare_iff scene.points
  unfold Category.steps Features.steps Features.events
  rw [Feature.sort, points_eq]
  simp only [List.flatMap_append]
  have begun : ((points.map Prod.fst).map fun feature => (feature, ({} : Cursor))).map Prod.fst =
      points.map Prod.fst := by
    rw [List.map_map]
    exact List.map_id _
  -- Every pass takes up the features as the one before it has left them.
  refine ⟨points, inOrder_of_pairwise _ _ _ points_perm points_rise, _, _, _, ?_, ?_, ?_, rfl⟩
  · exact Features.turns_run _ _ _ _ begun
  · exact Features.turns_run _ _ _ _ ((features_run _ _ _).trans begun)
  · exact Features.turns_run _ _ _ _ ((features_run _ _ _).trans ((features_run _ _ _).trans begun))

end Scene

end Cartograph

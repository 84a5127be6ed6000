import Mathlib
import Cartograph.Proofs.Rendering.Order

/-! What is added to a scene below all its features changes nothing about their main icons. Features
take their turns from the highest priority down, so every feature of the scene finds the grid as it
would without the added ones, which come after all of them. -/

namespace Cartograph

open Sorting

namespace Pass

/-- A feature in its turn of a pass: the grid as it finds it, and what comes of its attempt. A
feature that makes no attempt has no events. -/
structure Turn where
  feature : Feature
  board : Board
  placed : Placed

namespace Turn

def steps (turn : Turn) : List (Step Empty) := turn.placed.events.flatMap Event.steps

end Turn

variable (place : Feature → Cursor → Board → Placed)

def turns (board : Board) : List (Feature × Cursor) → List Turn
  | [] => []
  | (feature, cursor) :: rest =>
    let placed := place feature cursor board
    ⟨feature, board, placed⟩ :: turns (board.afterAll placed.events) rest

theorem run_eq_turns (board : Board) (cursors : List (Feature × Cursor)) :
    run place board cursors =
      ⟨(turns place board cursors).map fun turn => (turn.feature, turn.placed.cursor),
        (turns place board cursors).flatMap (·.placed.events),
        board.afterAll ((turns place board cursors).flatMap (·.placed.events))⟩ := by
  induction cursors generalizing board with
  | nil => rfl
  | cons entry rest later =>
    rw [run, later, turns, List.map_cons, List.flatMap_cons, Board.afterAll, Board.afterAll,
      Board.afterAll, List.foldl_append]

theorem features_turns (board : Board) (cursors : List (Feature × Cursor)) :
    (turns place board cursors).map Turn.feature = cursors.map Prod.fst := by
  have features := features_run place board cursors
  rw [run_eq_turns, List.map_map] at features
  exact features

theorem turns_append (board : Board) (first second : List (Feature × Cursor)) :
    turns place board (first ++ second) =
      turns place board first ++ turns place (run place board first).board second := by
  induction first generalizing board with
  | nil => rfl
  | cons entry rest later => rw [List.cons_append, turns, later, turns, run, List.cons_append]

theorem steps_turns (board : Board) (cursors : List (Feature × Cursor)) :
    (run place board cursors).events.flatMap Event.steps =
      (turns place board cursors).flatMap Turn.steps := by
  rw [run_eq_turns, List.flatMap_assoc]
  rfl

end Pass

namespace Features

def mainTurns (configuration : Configuration) (size : Point Float) (features : List Feature) :
    List Pass.Turn :=
  Pass.turns Feature.placeMain (board size configuration.overlap)
    ((Feature.sort features).map fun feature => (feature, {}))

theorem features_mainTurns (configuration : Configuration) (size : Point Float)
    (features : List Feature) :
    (mainTurns configuration size features).map Pass.Turn.feature = Feature.sort features := by
  rw [mainTurns, Pass.features_turns, List.map_map]
  exact List.map_id _

theorem steps_eq_mainTurns (configuration : Configuration) (size : Point Float)
    (features : List Feature) :
    ∃ others, steps configuration size features =
      (mainTurns configuration size features).flatMap Pass.Turn.steps ++ others := by
  unfold steps events
  simp only [List.flatMap_append]
  rw [Pass.steps_turns, List.append_assoc]
  exact ⟨_, rfl⟩

theorem sort_interleaved (features added all : List Feature)
    (interleaved : Interleaved features added all)
    (lower : ∀ feature ∈ features, ∀ other ∈ added,
      compare other.priority feature.priority = .lt) :
    Feature.sort all = Feature.sort features ++ Feature.sort added := by
  apply mergeSort_interleaved Feature.sortKey _ Feature.isLE_compare_iff _ _ _ interleaved
  intro feature known other listed
  have below : other.priority.place < feature.priority.place :=
    compare_lt_iff_lt.mp (lower feature known other listed)
  exact OrderDual.toDual_lt_toDual.mpr below

theorem mainTurns_interleaved (configuration : Configuration) (size : Point Float)
    (features added all : List Feature) (interleaved : Interleaved features added all)
    (lower : ∀ feature ∈ features, ∀ other ∈ added,
      compare other.priority feature.priority = .lt) :
    ∃ later, mainTurns configuration size all = mainTurns configuration size features ++ later ∧
      later.map Pass.Turn.feature = Feature.sort added := by
  unfold mainTurns
  rw [sort_interleaved features added all interleaved lower, List.map_append, Pass.turns_append]
  refine ⟨_, rfl, ?_⟩
  rw [Pass.features_turns, List.map_map]
  exact List.map_id _

end Features

namespace Scene

/-- Every feature of a scene has its turn with the same grid and the same outcome when features of
lower priority are put anywhere among them, and what is drawn in these turns comes first. -/
theorem mains_unaffected (configuration : Configuration) (scene : Scene)
    (added all : List Feature) (interleaved : Interleaved scene.points added all)
    (lower : ∀ feature ∈ scene.points, ∀ other ∈ added,
      compare other.priority feature.priority = .lt) :
    let turns := Features.mainTurns configuration scene.size scene.points
    turns.map Pass.Turn.feature = Feature.sort scene.points ∧
      (∃ others, Features.steps configuration scene.size scene.points =
        turns.flatMap Pass.Turn.steps ++ others) ∧
      ∃ later, Features.mainTurns configuration scene.size all = turns ++ later ∧
        later.map Pass.Turn.feature = Feature.sort added ∧
        ∃ others, Features.steps configuration scene.size all =
          turns.flatMap Pass.Turn.steps ++ later.flatMap Pass.Turn.steps ++ others := by
  intro turns
  obtain ⟨later, turns_eq, added_eq⟩ := Features.mainTurns_interleaved configuration scene.size
    scene.points added all interleaved lower
  obtain ⟨others, steps_eq⟩ := Features.steps_eq_mainTurns configuration scene.size all
  rw [turns_eq, List.flatMap_append] at steps_eq
  exact ⟨Features.features_mainTurns _ _ _, Features.steps_eq_mainTurns _ _ _, later, turns_eq,
    added_eq, others, steps_eq⟩

def crossing : Scene :=
  { signpostScene with points := [signpost, { signpost with point := ⟨20, 12⟩ }] }

def fingerpost : Feature :=
  { signpost with point := ⟨20, 11⟩, priority := ⟨0x8000000000000000⟩ }

theorem crossing_unaffected :
    let all := [fingerpost, signpost, fingerpost, { signpost with point := ⟨20, 12⟩ }]
    Interleaved crossing.points [fingerpost, fingerpost] all ∧
      (∀ feature ∈ crossing.points, ∀ other ∈ [fingerpost, fingerpost],
        compare other.priority feature.priority = .lt) ∧
      ∃ later others,
        Features.mainTurns {} crossing.size all =
          Features.mainTurns {} crossing.size crossing.points ++ later ∧
        Features.steps {} crossing.size all =
          (Features.mainTurns {} crossing.size crossing.points).flatMap Pass.Turn.steps ++
            later.flatMap Pass.Turn.steps ++ others := by
  intro all
  have interleaved : Interleaved crossing.points [fingerpost, fingerpost] all :=
    .second _ (.first _ (.second _ (.first _ .empty)))
  have lower : ∀ feature ∈ crossing.points, ∀ other ∈ [fingerpost, fingerpost],
      compare other.priority feature.priority = .lt := by
    simp only [crossing, List.forall_mem_cons, List.not_mem_nil, false_imp_iff, implies_true,
      and_true]
    decide
  obtain ⟨-, -, later, turns_eq, -, others, steps_eq⟩ :=
    mains_unaffected {} crossing [fingerpost, fingerpost] all interleaved lower
  exact ⟨interleaved, lower, later, others, turns_eq, steps_eq⟩

end Scene

end Cartograph

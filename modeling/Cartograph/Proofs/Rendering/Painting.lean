import Cartograph.Proofs.Canvas.Lines
import Cartograph.Proofs.Rendering.Order

/-! What a scene paints: shapes, one group of them, and texts that are labels of its features or
lines of the credit. -/

namespace Cartograph

namespace Feature

inductive Draws (feature : Feature) : Step Empty → Prop
  | shape (path : Path) (style : Style) : Draws feature (.shape path style)
  | label (label : Label) (listed : label ∈ feature.labels) (position : Point Float)
    (style : TextStyle) : Draws feature (.label label.shown position style)

section Draws

variable (feature : Feature)

theorem draws_icon (icon : Icon) (position : Point Float) (isOutlined : Bool) :
    ∀ step ∈ icon.steps position isOutlined, feature.Draws step := by
  intro step member
  have filled (style : Color → Style) (inside : step ∈ icon.shapeSteps position style) :
      feature.Draws step := by
    obtain ⟨shape, -, rfl⟩ := List.mem_map.mp inside
    exact .shape _ _
  rcases List.mem_append.mp member with outline | fill
  · split at outline
    · exact filled _ outline
    · cases outline
  · exact filled _ fill

theorem draws_labelSteps (label : Label) (listed : label ∈ feature.labels)
    (position : Point Float) : ∀ step ∈ label.steps position, feature.Draws step := by
  intro step member
  rcases List.mem_append.mp member with outline | text
  · obtain ⟨color, -, rfl⟩ := Option.map_eq_some_iff.mp (Option.mem_toList.mp outline)
    exact .label label listed _ _
  · rw [List.mem_singleton.mp text]
    exact .label label listed _ _

theorem draws_attempt (board : Board) (claim : Grid → Claim) (steps : List (Step Empty))
    (substitute : Option (List (Step Empty))) (own : ∀ step ∈ steps, feature.Draws step)
    (instead : ∀ other ∈ substitute, ∀ step ∈ other, feature.Draws step) :
    ∀ step ∈ (board.attempt claim steps substitute).steps, feature.Draws step := by
  cases board with
  | none => exact own
  | some grid =>
    rcases attempt_cases grid claim steps substitute with
      ⟨-, painted⟩ | ⟨other, listed, replaced⟩ | hidden
    · rw [painted]
      exact own
    · rw [replaced]
      exact instead other listed
    · rw [hidden]
      intro step member
      cases member

theorem draws_iconEvent (board : Board) (icon : Icon) (substitute : Option Icon)
    (position : Point Float) :
    ∀ step ∈ (feature.iconEvent board icon substitute position).steps, feature.Draws step := by
  apply draws_attempt
  · exact feature.draws_icon icon _ _
  · intro other listed
    obtain ⟨icon, -, rfl⟩ := Option.map_eq_some_iff.mp listed
    exact feature.draws_icon icon _ _

theorem draws_placeMain (cursor : Cursor) (board : Board) :
    ∀ step ∈ (feature.placeMain cursor board).events.flatMap Event.steps, feature.Draws step := by
  unfold placeMain
  split
  · intro step member
    cases member
  · rw [List.flatMap_singleton]
    exact feature.draws_iconEvent board _ _ _

theorem draws_extraEvents (y : Float) (board : Board) (row : List (Float × Icon)) :
    ∀ step ∈ (feature.extraEvents y board row).flatMap Event.steps, feature.Draws step := by
  induction row generalizing board with
  | nil =>
    intro step member
    cases member
  | cons entry rest later =>
    rw [extraEvents, List.flatMap_cons]
    intro step member
    rcases List.mem_append.mp member with first | others
    · exact feature.draws_iconEvent board _ _ _ step first
    · exact later _ step others

theorem draws_placeExtras (cursor : Cursor) (board : Board) :
    ∀ step ∈ (feature.placeExtras cursor board).events.flatMap Event.steps,
      feature.Draws step := by
  unfold placeExtras
  simp only
  split
  · intro step member
    cases member
  · exact feature.draws_extraEvents _ _ _

theorem draws_labelEvents (y : Float) (board : Board) (labels : List Label)
    (listed : ∀ label ∈ labels, label ∈ feature.labels) :
    ∀ step ∈ (feature.labelEvents y board labels).2.flatMap Event.steps, feature.Draws step := by
  induction labels generalizing y board with
  | nil =>
    intro step member
    cases member
  | cons label rest later =>
    obtain ⟨first, others⟩ := List.forall_mem_cons.mp listed
    intro step member
    rcases List.mem_append.mp member with own | following
    · refine feature.draws_attempt board _ _ none ?_ ?_ step own
      · exact feature.draws_labelSteps label first _
      · intro other absent
        cases absent
    · exact later _ _ others step following

theorem shownLabels_subset (mode : LabelMode) :
    ∀ label ∈ feature.shownLabels mode, label ∈ feature.labels := by
  intro label member
  cases mode with
  | no => cases member
  | main => exact List.mem_of_mem_take member
  | all => exact member

theorem draws_placeTexts (mode : LabelMode) (cursor : Cursor) (board : Board) :
    ∀ step ∈ (feature.placeTexts mode cursor board).events.flatMap Event.steps,
      feature.Draws step :=
  feature.draws_labelEvents _ _ _ (feature.shownLabels_subset mode)

end Draws

end Feature

namespace Features

theorem draws_of_turns (attempt : Feature → Cursor → Board → Placed)
    (own : ∀ feature cursor board,
      ∀ step ∈ (attempt feature cursor board).events.flatMap Event.steps, feature.Draws step)
    (features : List Feature) (drawn : List (Step Empty))
    (turns : Turns attempt features drawn) :
    ∀ step ∈ drawn, ∃ feature ∈ features, feature.Draws step := by
  induction turns with
  | done =>
    intro step member
    cases member
  | next feature cursor board others later =>
    intro step member
    rcases List.mem_append.mp member with first | following
    · exact ⟨feature, List.mem_cons_self, own feature cursor board step first⟩
    · obtain ⟨other, listed, draws⟩ := later step following
      exact ⟨other, List.mem_cons_of_mem _ listed, draws⟩

end Features

namespace Scene

inductive Paints (configuration : Configuration) (scene : Scene) : Step Empty → Prop
  | shape (path : Path) (style : Style) : Paints configuration scene (.shape path style)
  | shade (opacity : Float) (parts : List (Step Empty))
    (shapes : ∀ part ∈ parts, ∃ path style, part = .shape path style) :
    Paints configuration scene (.group opacity parts)
  | label (feature : Feature) (listed : feature ∈ scene.points) (label : Label)
    (own : label ∈ feature.labels) (position : Point Float) (style : TextStyle) :
    Paints configuration scene (.label label.shown position style)
  | credit (line : String × Point Float) (listed : line ∈ Credit.lines configuration)
    (position : Point Float) (style : TextStyle) :
    Paints configuration scene (.label line.1 position style)

section Paints

variable (configuration : Configuration) (scene : Scene)

theorem paints_nodes :
    ∀ step ∈ Category.nodes.steps configuration scene, Paints configuration scene step := by
  obtain ⟨points, in_order, mains, extras, texts, mains_turn, extras_turn, texts_turn, drawn_eq⟩ :=
    features_in_turn configuration scene
  rw [drawn_eq]
  intro step member
  have drawn : ∃ feature ∈ points.map Prod.fst, feature.Draws step := by
    rcases List.mem_append.mp member with icon | text
    · rcases List.mem_append.mp icon with main | extra
      · exact Features.draws_of_turns _ Feature.draws_placeMain _ _ mains_turn step main
      · exact Features.draws_of_turns _ Feature.draws_placeExtras _ _ extras_turn step extra
    · exact Features.draws_of_turns _ (fun feature => feature.draws_placeTexts _) _ _ texts_turn
        step text
  obtain ⟨feature, listed, draws⟩ := drawn
  cases draws with
  | shape path style => exact .shape path style
  | label label own position style =>
    exact .label feature (in_order.fst_mem feature listed) label own position style

theorem paints_disc (center : Point Float) (radius : Float) (color : Color) :
    Paints configuration scene (discStep center radius color) :=
  .shape _ _

theorem paints_trees :
    ∀ step ∈ Category.trees.steps configuration scene, Paints configuration scene step := by
  intro step member
  obtain ⟨tree, -, drawn⟩ := List.mem_flatMap.mp member
  rcases List.mem_cons.mp drawn with rfl | trunk
  · exact paints_disc ..
  · obtain ⟨radius, -, rfl⟩ := Option.map_eq_some_iff.mp (Option.mem_toList.mp trunk)
    exact paints_disc ..

theorem paints_craters :
    ∀ step ∈ Category.craters.steps configuration scene, Paints configuration scene step := by
  intro step member
  obtain ⟨crater, -, drawn⟩ := List.mem_flatMap.mp member
  obtain ⟨radius, -, rfl⟩ := Option.map_eq_some_iff.mp (Option.mem_toList.mp drawn)
  exact paints_disc ..

theorem paints_directions :
    ∀ step ∈ Category.directions.steps configuration scene,
      Paints configuration scene step := by
  intro step member
  obtain ⟨node, -, drawn⟩ := List.mem_flatMap.mp member
  obtain ⟨sector, -, rfl⟩ := List.mem_map.mp drawn
  exact .shape _ _

theorem paints_shade (opacity scale : Float) (buildings : List Building) :
    Paints configuration scene
      (.group opacity (buildings.flatMap (Building.shadeSteps scale))) := by
  apply Paints.shade
  intro part member
  obtain ⟨building, -, drawn⟩ := List.mem_flatMap.mp member
  rcases List.mem_cons.mp drawn with rfl | side
  · exact ⟨_, _, rfl⟩
  · obtain ⟨edge, -, rfl⟩ := List.mem_map.mp side
    exact ⟨_, _, rfl⟩

theorem paints_bandSteps (buildings : Array Building) (lift : Float) (part : Bands.Step) :
    ∀ step ∈ Buildings.bandSteps configuration buildings lift part,
      Paints configuration scene step := by
  intro step member
  cases part with
  | wall wall bottom top =>
    obtain ⟨building, -, rfl⟩ := Option.map_eq_some_iff.mp (Option.mem_toList.mp member)
    exact .shape _ _
  | roof index level =>
    rw [Buildings.bandSteps] at member
    split at member
    · obtain ⟨building, -, rfl⟩ := Option.map_eq_some_iff.mp (Option.mem_toList.mp member)
      exact .shape _ _
    · exact absurd member List.not_mem_nil

theorem paints_buildings :
    ∀ step ∈ Category.buildings.steps configuration scene, Paints configuration scene step := by
  intro step member
  rw [Category.steps, Buildings.steps] at member
  split at member
  · exact absurd member List.not_mem_nil
  · obtain ⟨building, -, rfl⟩ := List.mem_map.mp member
    exact .shape _ _
  · rcases List.mem_cons.mp member with rfl | lifted
    · exact paints_shade ..
    · obtain ⟨part, -, drawn⟩ := List.mem_flatMap.mp lifted
      exact paints_bandSteps _ _ _ _ part step drawn

theorem paints_credit :
    ∀ step ∈ Category.credit.steps configuration scene, Paints configuration scene step := by
  intro step member
  obtain ⟨line, listed, drawn⟩ := List.mem_flatMap.mp member
  rcases List.mem_pair.mp drawn with rfl | rfl
  · exact .credit line listed _ _
  · exact .credit line listed _ _

theorem paints_category (shown : Category) :
    ∀ step ∈ shown.steps configuration scene, Paints configuration scene step := by
  cases shown with
  | trees => exact paints_trees configuration scene
  | craters => exact paints_craters configuration scene
  | buildings => exact paints_buildings configuration scene
  | directions => exact paints_directions configuration scene
  | nodes => exact paints_nodes configuration scene
  | credit => exact paints_credit configuration scene

theorem paints_ground :
    ∀ step ∈ groundSteps configuration scene, Paints configuration scene step := by
  obtain ⟨lower, upper, roads, -, -, -, -, ground_eq⟩ := groundSteps_in_turn configuration scene
  rw [ground_eq]
  intro step member
  rcases List.mem_append.mp member with below | figure
  · rcases List.mem_append.mp below with figure | road
    · obtain ⟨entry, -, rfl⟩ := List.mem_map.mp figure
      exact .shape _ _
    · rcases List.mem_append.mp road with border | body
      · obtain ⟨entry, -, bordered⟩ := List.mem_filterMap.mp border
        obtain ⟨color, -, rfl⟩ := Option.map_eq_some_iff.mp bordered
        exact .shape _ _
      · obtain ⟨entry, -, rfl⟩ := List.mem_map.mp body
        exact .shape _ _
  · obtain ⟨entry, -, rfl⟩ := List.mem_map.mp figure
    exact .shape _ _

theorem paints_steps : ∀ step ∈ steps configuration scene, Paints configuration scene step := by
  rw [steps_eq_layers]
  intro step member
  rcases List.mem_append.mp member with ground | layered
  · rcases List.mem_cons.mp ground with rfl | other
    · exact .shape _ _
    · exact paints_ground configuration scene step other
  · obtain ⟨shown, -, drawn⟩ := List.mem_flatMap.mp layered
    unfold layer category at drawn
    split at drawn
    · exact paints_category configuration scene shown step drawn
    · cases drawn

theorem isBalanced_of_paints (step : Step Empty) (paints : Paints configuration scene step) :
    step.IsBalanced := by
  cases paints with
  | shape path style => trivial
  | shade opacity parts shapes =>
    rw [Step.IsBalanced, Step.allBalanced_iff]
    intro part member
    obtain ⟨path, style, rfl⟩ := shapes part member
    trivial
  | label feature listed label own position style => trivial
  | credit line listed position style => trivial

theorem allBalanced_steps : Step.AllBalanced (steps configuration scene) := by
  rw [Step.allBalanced_iff]
  intro step member
  exact isBalanced_of_paints configuration scene step (paints_steps configuration scene step member)

end Paints

end Scene

end Cartograph

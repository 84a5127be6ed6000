import Cartograph.Proofs.Placement.Claim
import Cartograph.Rendering.Features

/-! No two items share a cell. An item is painted where all cells that it probes are free, and
those cells are among the ones that it takes; so what is painted later probes none of them, and
what was painted earlier has taken none of them. -/

namespace Cartograph

namespace Event

def area? : Event → Option Area
  | painted claim _ => some claim.area
  | replaced _ => none
  | hidden => none

end Event

namespace Grid

def afterAll (grid : Grid) (events : List Event) : Grid :=
  { grid with reserved := (events.filterMap Event.area?).reverse ++ grid.reserved }

theorem afterAll_append (grid : Grid) (first second : List Event) :
    grid.afterAll (first ++ second) = (grid.afterAll first).afterAll second := by
  simp [afterAll]

theorem afterAll_cons (grid : Grid) (event : Event) (rest : List Event) :
    grid.afterAll (event :: rest) = (grid.afterAll [event]).afterAll rest :=
  grid.afterAll_append [event] rest

theorem inside_of_free (grid : Grid) (cell : Cell) (free : grid.isTaken cell = false) :
    grid.inside cell = true := by
  rw [isTaken, Bool.or_eq_false_iff, Bool.not_eq_false'] at free
  exact free.1

theorem isTaken_of_painted (grid : Grid) (events : List Event) (claim : Claim)
    (steps : List (Step Empty)) (member : .painted claim steps ∈ events) (cell : Cell)
    (contained : claim.area.contains cell = true) : (grid.afterAll events).isTaken cell = true := by
  have kept : claim.area ∈ (grid.afterAll events).reserved := by
    apply List.mem_append_left
    rw [List.mem_reverse, List.mem_filterMap]
    exact ⟨_, member, rfl⟩
  rw [isTaken, Bool.or_eq_true]
  exact .inr (List.any_eq_true.mpr ⟨claim.area, kept, contained⟩)

end Grid

namespace Board

theorem after_some (grid : Grid) (event : Event) :
    after (some grid) event = some (grid.afterAll [event]) := by
  cases event <;> rfl

theorem afterAll_some (grid : Grid) (events : List Event) :
    afterAll (some grid) events = some (grid.afterAll events) := by
  induction events generalizing grid with
  | nil => rfl
  | cons event rest later =>
    rw [afterAll, List.foldl_cons, after_some]
    exact (later _).trans (congrArg some (Grid.afterAll_cons grid event rest).symm)

end Board

inductive Fits (features : List Feature) (grid : Grid) : Event → Prop
  | painted (feature : Feature) (known : feature ∈ features) (claim : Claim)
    (steps : List (Step Empty)) (item : feature.Item grid.reach claim steps)
    (free : ∀ probe ∈ claim.probes, grid.isTaken probe = false) :
    Fits features grid (.painted claim steps)
  | replaced (feature : Feature) (known : feature ∈ features) (steps : List (Step Empty))
    (substitute : feature.Substitute steps) : Fits features grid (.replaced steps)
  | hidden : Fits features grid .hidden

/-- Every event fits the grid that the ones before it leave. -/
def Lawful (features : List Feature) : Grid → List Event → Prop
  | _, [] => True
  | grid, event :: rest => Fits features grid event ∧ Lawful features (grid.afterAll [event]) rest

section Lawful

variable (features : List Feature)

theorem lawful_append (grid : Grid) (first second : List Event)
    (before : Lawful features grid first)
    (after : Lawful features (grid.afterAll first) second) :
    Lawful features grid (first ++ second) := by
  induction first generalizing grid with
  | nil => exact after
  | cons event rest later =>
    obtain ⟨fits, rest_lawful⟩ := before
    rw [Grid.afterAll_cons] at after
    exact ⟨fits, later _ rest_lawful after⟩

theorem fits_of_lawful (grid : Grid) (events : List Event) (lawful : Lawful features grid events)
    (index : Nat) (event : Event) (found : events[index]? = some event) :
    Fits features (grid.afterAll (events.take index)) event := by
  induction events generalizing grid index with
  | nil => cases found
  | cons first rest later =>
    obtain ⟨fits, rest_lawful⟩ := lawful
    cases index with
    | zero =>
      obtain rfl : first = event := Option.some.inj found
      exact fits
    | succ earlier =>
      rw [List.take_succ_cons, Grid.afterAll_cons]
      exact later _ rest_lawful earlier found

end Lawful

section Placing

variable (features : List Feature) (feature : Feature) (known : feature ∈ features) (grid : Grid)

theorem attempt_cases (claim : Grid → Claim) (steps : List (Step Empty))
    (substitute : Option (List (Step Empty))) :
    ((∀ probe ∈ (claim grid).probes, grid.isTaken probe = false) ∧
        Board.attempt (some grid) claim steps substitute = .painted (claim grid) steps) ∨
      (∃ instead, substitute = some instead ∧
        Board.attempt (some grid) claim steps substitute = .replaced instead) ∨
      Board.attempt (some grid) claim steps substitute = .hidden := by
  by_cases blocked : (claim grid).probes.any grid.isTaken = true
  · cases substitute with
    | none => exact .inr (.inr (if_pos blocked))
    | some instead => exact .inr (.inl ⟨instead, rfl, if_pos blocked⟩)
  · refine .inl ⟨?_, if_neg blocked⟩
    simpa using blocked

include known

theorem fits_attempt (claim : Grid → Claim) (steps : List (Step Empty))
    (substitute : Option (List (Step Empty)))
    (item : feature.Item grid.reach (claim grid) steps)
    (instead : ∀ other, substitute = some other → feature.Substitute other) :
    Fits features grid (Board.attempt (some grid) claim steps substitute) := by
  rcases attempt_cases grid claim steps substitute with
    ⟨free, painted⟩ | ⟨other, listed, replaced⟩ | hidden
  · rw [painted]
    exact .painted feature known _ steps item free
  · rw [replaced]
    exact .replaced feature known other (instead other listed)
  · rw [hidden]
    exact .hidden

theorem fits_iconEvent (icon : Icon) (substitute : Option Icon) (position : Point Float)
    (item : feature.Item grid.reach (Feature.iconClaim grid.reach position)
      (icon.steps position.truncate feature.isOutlined))
    (instead : ∀ other, substitute = some other →
      feature.Substitute (other.steps position.truncate feature.isOutlined)) :
    Fits features grid (feature.iconEvent (some grid) icon substitute position) := by
  apply fits_attempt features feature known grid _ _ _ item
  intro steps drawn
  obtain ⟨other, listed, rfl⟩ := Option.map_eq_some_iff.mp drawn
  exact instead other listed

theorem lawful_placeMain (cursor : Cursor) :
    Lawful features grid (feature.placeMain cursor (some grid)).events := by
  unfold Feature.placeMain
  split
  · exact trivial
  · refine ⟨?_, trivial⟩
    apply fits_iconEvent features feature known grid
    · exact .mainIcon cursor.y
    · intro icon listed
      exact .defaultIcon cursor.y icon listed

theorem lawful_extraEvents (y : Float) (row : List (Float × Icon))
    (listed : ∀ entry ∈ row, entry ∈ feature.extraRow) :
    Lawful features grid (feature.extraEvents y (some grid) row) := by
  induction row generalizing grid with
  | nil => exact trivial
  | cons entry rest later =>
    obtain ⟨first, others⟩ := List.forall_mem_cons.mp listed
    constructor
    · apply fits_iconEvent features feature known grid
      · exact .extraIcon entry.1 y entry.2 first
      · intro other absent
        cases absent
    · rw [Board.after_some]
      exact later _ others

theorem lawful_placeExtras (cursor : Cursor) :
    Lawful features grid (feature.placeExtras cursor (some grid)).events := by
  unfold Feature.placeExtras
  simp only
  split
  · exact trivial
  · exact lawful_extraEvents features feature known grid cursor.y _ fun _ member => member

theorem lawful_labelEvents (y : Float) (labels : List Label)
    (listed : ∀ label ∈ labels, label ∈ feature.labels) :
    Lawful features grid (feature.labelEvents y (some grid) labels).2 := by
  induction labels generalizing grid y with
  | nil => exact trivial
  | cons label rest later =>
    obtain ⟨first, others⟩ := List.forall_mem_cons.mp listed
    constructor
    · apply fits_attempt features feature known grid
      · exact .label y label first
      · intro other absent
        cases absent
    · rw [Board.after_some]
      exact later _ _ others

theorem lawful_placeTexts (mode : LabelMode) (cursor : Cursor) :
    Lawful features grid (feature.placeTexts mode cursor (some grid)).events := by
  have listed (label : Label) (member : label ∈ feature.shownLabels mode) :
      label ∈ feature.labels := by
    cases mode with
    | no => cases member
    | main => exact List.mem_of_mem_take member
    | all => exact member
  exact lawful_labelEvents features feature known grid cursor.y _ listed

end Placing

section Run

variable (features : List Feature) (place : Feature → Cursor → Board → Placed)

theorem features_run (board : Board) (cursors : List (Feature × Cursor)) :
    (Pass.run place board cursors).cursors.map Prod.fst = cursors.map Prod.fst := by
  induction cursors generalizing board with
  | nil => rfl
  | cons entry rest later => exact congrArg (entry.1 :: ·) (later _)

theorem board_run (board : Board) (cursors : List (Feature × Cursor)) :
    (Pass.run place board cursors).board =
      board.afterAll (Pass.run place board cursors).events := by
  induction cursors generalizing board with
  | nil => rfl
  | cons entry rest later =>
    rw [Pass.run, later, Board.afterAll, Board.afterAll, Board.afterAll, List.foldl_append]

theorem lawful_run
    (each : ∀ feature ∈ features, ∀ cursor grid,
      Lawful features grid (place feature cursor (some grid)).events)
    (grid : Grid) (cursors : List (Feature × Cursor))
    (known : ∀ feature ∈ cursors.map Prod.fst, feature ∈ features) :
    Lawful features grid (Pass.run place (some grid) cursors).events := by
  induction cursors generalizing grid with
  | nil => exact trivial
  | cons entry rest later =>
    obtain ⟨first, others⟩ := List.forall_mem_cons.mp known
    apply lawful_append
    · exact each entry.1 first entry.2 grid
    · rw [Board.afterAll_some]
      exact later _ others

end Run

theorem lawful_events (mode : LabelMode) (features : List Feature) (grid : Grid) :
    Lawful features grid (Features.events mode features (some grid)) := by
  have known : ∀ feature ∈ ((Feature.sort features).map fun feature =>
      (feature, ({} : Cursor))).map Prod.fst, feature ∈ features := by
    intro feature member
    rw [List.map_map] at member
    obtain ⟨other, sorted, rfl⟩ := List.mem_map.mp member
    exact (List.mergeSort_perm features _).mem_iff.mp sorted
  unfold Features.events
  simp only [board_run, Board.afterAll_some]
  apply lawful_append
  · apply lawful_append
    · apply lawful_run features _ _ grid _ known
      intro feature listed cursor grid
      exact lawful_placeMain features feature listed grid cursor
    · apply lawful_run features _ _ _ _ (by rwa [features_run])
      intro feature listed cursor grid
      exact lawful_placeExtras features feature listed grid cursor
  · rw [Grid.afterAll_append]
    apply lawful_run features _ _ _ _ (by rwa [features_run, features_run])
    intro feature listed cursor grid
    exact lawful_placeTexts features feature listed grid mode cursor

/-- The cells that an item probes in its turn are its own from then on. -/
structure Clear (board : Board) (events : List Event) (turn : Nat) (claim : Claim) : Prop where
  inside : ∀ probe ∈ claim.probes, board.any (·.inside probe) = true
  free : ∀ probe ∈ claim.probes, (board.afterAll (events.take turn)).isTaken probe = false
  taken : ∀ later, turn < later → ∀ probe ∈ claim.probes,
    (board.afterAll (events.take later)).isTaken probe = true
  apart : ∀ earlier < turn, ∀ other steps, events[earlier]? = some (.painted other steps) →
    ∀ probe ∈ claim.probes, other.area.contains probe = false ∧ probe ∉ other.probes

/-- Whatever is painted is an item of a feature on cells of its own, or stands in for one and
reserves nothing. -/
structure Exclusive (features : List Feature) (overlap : Nat) (board : Board)
    (events : List Event) : Prop where
  painted : ∀ turn claim steps, events[turn]? = some (.painted claim steps) →
    (∃ feature ∈ features, feature.Item overlap claim steps) ∧ Clear board events turn claim
  replaced : ∀ turn steps, events[turn]? = some (.replaced steps) →
    (∃ feature ∈ features, feature.Substitute steps) ∧
      board.afterAll (events.take (turn + 1)) = board.afterAll (events.take turn)

section Exclusive

variable (features : List Feature) (grid : Grid) (events : List Event)
  (lawful : Lawful features grid events)

include lawful

theorem painted_of_lawful (turn : Nat) (claim : Claim) (steps : List (Step Empty))
    (found : events[turn]? = some (.painted claim steps)) :
    (∃ feature ∈ features, feature.Item grid.reach claim steps) ∧
      ∀ probe ∈ claim.probes, (grid.afterAll (events.take turn)).isTaken probe = false := by
  have fits := fits_of_lawful features grid events lawful turn _ found
  cases fits with
  | painted feature known claim steps item free => exact ⟨⟨feature, known, item⟩, free⟩

theorem clear_of_lawful (positive : 0 < grid.reach) (turn : Nat) (claim : Claim)
    (steps : List (Step Empty)) (found : events[turn]? = some (.painted claim steps)) :
    Clear (some grid) events turn claim := by
  obtain ⟨⟨feature, -, item⟩, free⟩ := painted_of_lawful features grid events lawful turn _ _ found
  -- What one turn reserves is taken in all later ones, which gives both directions in time.
  have before (earlier later : Nat) (less : earlier < later) (other : Claim)
      (steps : List (Step Empty)) (drawn : events[earlier]? = some (.painted other steps))
      (cell : Cell) (contained : other.area.contains cell = true) :
      (grid.afterAll (events.take later)).isTaken cell = true := by
    apply Grid.isTaken_of_painted grid _ other steps _ cell contained
    rw [← List.getElem?_take_of_lt less] at drawn
    exact List.mem_of_getElem? drawn
  constructor
  · intro probe member
    exact Grid.inside_of_free (grid.afterAll (events.take turn)) probe (free probe member)
  · intro probe member
    rw [Board.afterAll_some]
    exact free probe member
  · intro later less probe member
    rw [Board.afterAll_some]
    exact before turn later less claim steps found probe
      (Feature.contains_probe _ positive feature claim steps item probe member)
  · intro earlier less other steps drawn probe member
    have apart : other.area.contains probe = false := by
      rw [← Bool.not_eq_true]
      intro contained
      have taken := before earlier turn less other steps drawn probe contained
      rw [free probe member] at taken
      cases taken
    refine ⟨apart, ?_⟩
    intro shared
    obtain ⟨⟨feature', -, item'⟩, -⟩ :=
      painted_of_lawful features grid events lawful earlier _ _ drawn
    have contained := Feature.contains_probe _ positive feature' other steps item' probe shared
    rw [apart] at contained
    cases contained

theorem exclusive_of_lawful (overlap : Nat) (positive : 0 < overlap)
    (reach_eq : grid.reach = overlap) : Exclusive features overlap (some grid) events := by
  constructor
  · intro turn claim steps found
    refine ⟨?_, clear_of_lawful features grid events lawful (by omega) turn claim steps found⟩
    rw [← reach_eq]
    exact (painted_of_lawful features grid events lawful turn claim steps found).1
  · intro turn steps found
    have fits := fits_of_lawful features grid events lawful turn _ found
    cases fits with
    | replaced feature known steps substitute =>
      refine ⟨⟨feature, known, substitute⟩, ?_⟩
      rw [List.take_add_one, found, Board.afterAll, List.foldl_append]
      rfl

end Exclusive

theorem items_exclusive (configuration : Configuration) (scene : Scene)
    (positive : 0 < configuration.overlap) (small : configuration.overlap < 2 ^ 62) :
    let board := Features.board scene.size configuration.overlap
    Exclusive scene.points configuration.overlap board
      (Features.events configuration.labelMode scene.points board) := by
  have board_eq : Features.board scene.size configuration.overlap =
      some (Grid.ofSize scene.size.x scene.size.y configuration.overlap) := if_pos positive
  have counted : configuration.overlap < Number.twoTo 63 := small.trans (by decide)
  rw [board_eq]
  apply exclusive_of_lawful
  · exact lawful_events _ _ _
  · exact positive
  · exact if_pos counted

def signpost : Feature where
  tags := Table.empty
  processed := []
  mainIcon := {}
  extraIcons := []
  defaultIcon := none
  labels := [⟨"ab", Color.black, 10, none⟩]
  point := ⟨20, 10⟩
  priority := ⟨0⟩
  isForNode := true
  isOutlined := false

def signpostScene : Scene where
  size := ⟨40, 40⟩
  scale := 1
  figures := []
  buildings := []
  roads := []
  trees := []
  craters := []
  directions := []
  points := [signpost]

theorem signpost_exclusive :
    0 < ({} : Configuration).overlap ∧ ({} : Configuration).overlap < 2 ^ 62 ∧
      Exclusive [signpost] 12 (Features.board ⟨40, 40⟩ 12)
        (Features.events .main [signpost] (Features.board ⟨40, 40⟩ 12)) ∧
      (Features.events .main [signpost] (Features.board ⟨40, 40⟩ 12)).map Event.isPainted =
        [true, true] := by
  have positive : 0 < ({} : Configuration).overlap := by decide
  have small : ({} : Configuration).overlap < 2 ^ 62 := by decide
  refine ⟨positive, small, items_exclusive {} signpostScene positive small, ?_⟩
  have sorted : Feature.sort [signpost] = [signpost] := List.mergeSort_singleton signpost
  unfold Features.events
  rw [sorted]
  decide +kernel

end Cartograph

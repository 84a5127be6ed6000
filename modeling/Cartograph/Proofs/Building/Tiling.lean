import Mathlib
import Cartograph.Proofs.Building.Levels

/-! The bands in which a wall is drawn. Read in the order of the plan they lead from the bottom
of its building to the top without a gap, and none of them reaches across a height at which the
light changes. -/

namespace Cartograph.Bands

open Number

namespace Step

def span? (building part : Nat) : Step → Option (Float × Float)
  | .wall side bottom top =>
    if side.building = building ∧ side.part = part then some (bottom, top) else none
  | .roof _ _ => none

end Step

def spans (building part : Nat) (steps : List Step) : List (Float × Float) :=
  steps.filterMap (Step.span? building part)

/-- Spans that fill the room between two heights from below. -/
structure Tiles (low high : Float) (spans : List (Float × Float)) : Prop where
  begins : ∃ span ∈ spans.head?, (span.1 == low) = true
  ends : ∃ span ∈ spans.getLast?, (span.2 == high) = true
  joined : spans.IsChain fun below above => above.1 = below.2
  rising : ∀ span ∈ spans, span.1 < span.2

def Splits (height : Float) (spans : List (Float × Float)) : Prop :=
  ∀ span ∈ spans, span.2 ≤ height ∨ height ≤ span.1

def bandsFrom (stands : Float → Bool) (bottom : Float) : List Float → List (Float × Float)
  | [] => []
  | top :: rest =>
    if stands top then (bottom, top) :: bandsFrom stands top rest else bandsFrom stands top rest

theorem filter_zipIdx {α : Type} (entries : List α) (start position : Nat) (entry : α)
    (found : entries[position]? = some entry) :
    (entries.zipIdx start).filter (fun numbered => numbered.2 = start + position) =
      [(entry, start + position)] := by
  induction entries generalizing start position with
  | nil => cases found
  | cons first rest later =>
    rw [List.zipIdx_cons, List.filter_cons]
    cases position with
    | zero =>
      obtain rfl : first = entry := Option.some.inj found
      have others : (rest.zipIdx (start + 1)).filter (fun numbered => numbered.2 = start) = [] := by
        rw [List.filter_eq_nil_iff]
        intro numbered member
        have above := List.le_snd_of_mem_zipIdx member
        simp only [decide_eq_true_eq]
        omega
      simp [others]
    | succ earlier =>
      have rest_found := later (start + 1) earlier found
      rw [Nat.add_assoc, Nat.add_comm 1] at rest_found
      rw [if_neg (by simp), rest_found]

def wallsOf (numbered : Building × Nat) : List Wall :=
  numbered.1.parts.zipIdx.map fun (segment, part) => ⟨segment, numbered.2, part⟩

theorem filter_flatMap_wallsOf (entries : List (Building × Nat)) (index : Nat) :
    (entries.flatMap wallsOf).filter (fun side => side.building = index) =
      (entries.filter fun numbered => numbered.2 = index).flatMap wallsOf := by
  have building_eq (numbered : Building × Nat) (side : Wall) (member : side ∈ wallsOf numbered) :
      side.building = numbered.2 := by
    obtain ⟨_, _, rfl⟩ := List.mem_map.mp member
    rfl
  induction entries with
  | nil => rfl
  | cons numbered rest later =>
    rw [List.flatMap_cons, List.filter_append, later, List.filter_cons]
    by_cases same : numbered.2 = index
    · have all : (wallsOf numbered).filter (fun side => side.building = index) =
          wallsOf numbered := by
        rw [List.filter_eq_self]
        intro side member
        simpa using (building_eq numbered side member).trans same
      simp [same, all]
    · have none : (wallsOf numbered).filter (fun side => side.building = index) = [] := by
        rw [List.filter_eq_nil_iff]
        intro side member
        simpa [building_eq numbered side member] using same
      simp [same, none]

theorem filter_ofBuildings (buildings : List Building) (index part : Nat) (building : Building)
    (segment : Segment) (found : buildings[index]? = some building)
    (side : building.parts[part]? = some segment) :
    (Wall.ofBuildings buildings).filter (fun side => side.building = index ∧ side.part = part) =
      [⟨segment, index, part⟩] := by
  have sorted : (Wall.ofBuildings buildings).Perm (buildings.zipIdx.flatMap wallsOf) :=
    List.mergeSort_perm _ _
  have numbered := filter_zipIdx buildings 0 index building found
  have parts := filter_zipIdx building.parts 0 part segment side
  rw [Nat.zero_add] at numbered parts
  have both (side : Wall) : decide (side.building = index ∧ side.part = part) =
      (decide (side.part = part) && decide (side.building = index)) := by
    rw [Bool.decide_and, Bool.and_comm]
  have original : ((buildings.zipIdx.flatMap wallsOf).filter fun side =>
      side.building = index).filter (fun side => side.part = part) = [⟨segment, index, part⟩] := by
    rw [filter_flatMap_wallsOf, numbered, List.flatMap_singleton, wallsOf, List.filter_map]
    change List.map _ (building.parts.zipIdx.filter fun numbered => numbered.2 = part) = _
    rw [parts]
    rfl
  apply List.perm_singleton.mp
  rw [← original]
  simp only [both, ← List.filter_filter]
  exact (sorted.filter _).filter _

section Plan

variable (buildings : Array Building) (walls : List Wall) (index part : Nat) (building : Building)
  (found : buildings[index]? = some building) (wall : Wall)
  (once : walls.filter (fun side => side.building = index ∧ side.part = part) = [wall])

theorem spans_roofSteps (top : Float) : spans index part (roofSteps buildings top) = [] := by
  rw [spans, roofSteps, List.filterMap_map, List.filterMap_eq_nil_iff]
  intro _ _
  rfl

theorem spans_map_wall (bottom top : Float) (drawn : List Wall) :
    spans index part (drawn.map fun side => .wall side bottom top) =
      (drawn.filter fun side => side.building = index ∧ side.part = part).map
        fun _ => (bottom, top) := by
  induction drawn with
  | nil => rfl
  | cons side rest later =>
    unfold spans at later ⊢
    rw [List.map_cons, List.filterMap_cons, later, List.filter_cons]
    by_cases same : side.building = index ∧ side.part = part
    · simp [Step.span?, same]
    · simp [Step.span?, same]

include found once

theorem spans_wallSteps (bottom top : Float) :
    spans index part (wallSteps buildings walls bottom top) =
      if stands building top then [(bottom, top)] else [] := by
  have member : wall ∈ walls.filter fun side => side.building = index ∧ side.part = part := by
    rw [once]
    exact List.mem_singleton_self wall
  have same : wall.building = index := (of_decide_eq_true (List.mem_filter.mp member).2).1
  rw [wallSteps, spans_map_wall, List.filter_comm, once, List.filter_singleton, same, found,
    Option.any_some]
  cases stands building top <;> rfl

theorem spans_planFrom (bottom : Float) (tops : List Float) :
    spans index part (planFrom buildings walls bottom tops) =
      bandsFrom (stands building) bottom tops := by
  induction tops generalizing bottom with
  | nil => rfl
  | cons top rest later =>
    rw [planFrom, spans, List.filterMap_append, List.filterMap_append]
    have wallPart := spans_wallSteps buildings walls index part building found wall once bottom top
    have roofPart := spans_roofSteps buildings index part top
    have restPart := later top
    unfold spans at wallPart roofPart restPart
    rw [wallPart, roofPart, restPart, bandsFrom]
    split <;> rfl

end Plan

theorem mem_planFrom (buildings : Array Building) (walls : List Wall) (side : Wall)
    (start bottom top : Float) (tops : List Float)
    (member : Step.wall side bottom top ∈ planFrom buildings walls start tops) :
    top ∈ tops ∧ (buildings[side.building]?).any (stands · top) = true := by
  induction tops generalizing start with
  | nil => cases member
  | cons next rest later =>
    rw [planFrom, List.mem_append, List.mem_append] at member
    rcases member with (wallStep | roofStep) | deeper
    · obtain ⟨drawn, kept, same⟩ := List.mem_map.mp wallStep
      obtain ⟨rfl, rfl, rfl⟩ := Step.wall.inj same
      exact ⟨List.mem_cons_self, (List.mem_filter.mp kept).2⟩
    · obtain ⟨_, _, same⟩ := List.mem_map.mp roofStep
      cases same
    · obtain ⟨found, standing⟩ := later next deeper
      exact ⟨List.mem_cons_of_mem next found, standing⟩

theorem stands_iff (building : Building) (top : Float) (walled : building.hasWalls = true)
    (low_finite : building.minHeight.isFinite = true)
    (high_finite : building.height.isFinite = true)
    (top_finite : top.isFinite = true) :
    stands building top = true ↔
      ordinal building.minHeight < ordinal top ∧ ordinal top ≤ ordinal building.height := by
  have low_number := number_of_isFinite _ low_finite
  have high_number := number_of_isFinite _ high_finite
  have top_number := number_of_isFinite _ top_finite
  unfold stands
  rw [walled, Bool.true_and, Bool.and_eq_true, Bool.not_eq_true', Bool.not_eq_true',
    decide_eq_false_iff_not, decide_eq_false_iff_not, lt_iff _ _ high_number top_number,
    le_iff _ _ top_number low_number]
  omega

section Bands

variable (stands : Float → Bool)

theorem bandsFrom_eq_nil (bottom : Float) (tops : List Float)
    (none : ∀ top ∈ tops, stands top = false) : bandsFrom stands bottom tops = [] := by
  induction tops generalizing bottom with
  | nil => rfl
  | cons top rest later =>
    rw [bandsFrom, none top List.mem_cons_self]
    exact later top fun other member => none other (List.mem_cons_of_mem top member)

theorem bandsFrom_append (bottom low : Float) (below above : List Float)
    (none : ∀ top ∈ below, stands top = false) (lowest : stands low = false) :
    bandsFrom stands bottom (below ++ low :: above) = bandsFrom stands low above := by
  induction below generalizing bottom with
  | nil =>
    rw [List.nil_append, bandsFrom, lowest]
    rfl
  | cons top rest later =>
    rw [List.cons_append, bandsFrom, none top List.mem_cons_self]
    exact later top fun other member => none other (List.mem_cons_of_mem top member)

theorem splits_bandsFrom (height bottom : Float) (tops : List Float)
    (rising : (bottom :: tops).Pairwise (ordinal · < ordinal ·))
    (finite : ∀ x ∈ bottom :: tops, x.isFinite = true) (height_finite : height.isFinite = true)
    (known : ordinal height ≤ ordinal bottom ∨ ∃ x ∈ tops, ordinal x = ordinal height) :
    Splits height (bandsFrom stands bottom tops) := by
  induction tops generalizing bottom with
  | nil => exact fun span member => absurd member List.not_mem_nil
  | cons top rest later =>
    obtain ⟨above, rest_rising⟩ := List.pairwise_cons.mp rising
    obtain ⟨bottom_finite, rest_finite⟩ := List.forall_mem_cons.mp finite
    have height_number := number_of_isFinite height height_finite
    have bottom_number := number_of_isFinite bottom bottom_finite
    have top_number := number_of_isFinite top (rest_finite top List.mem_cons_self)
    have first : top ≤ height ∨ height ≤ bottom := by
      rw [le_iff _ _ top_number height_number, le_iff _ _ height_number bottom_number]
      rcases known with below | ⟨x, member, same⟩
      · exact .inr below
      · rcases List.mem_cons.mp member with rfl | deeper
        · exact .inl same.le
        · exact .inl (same ▸ ((List.pairwise_cons.mp rest_rising).1 x deeper).le)
    have others : Splits height (bandsFrom stands top rest) := by
      apply later top rest_rising rest_finite
      rcases known with below | ⟨x, member, same⟩
      · exact .inl (below.trans (above top List.mem_cons_self).le)
      · rcases List.mem_cons.mp member with rfl | deeper
        · exact .inl same.ge
        · exact .inr ⟨x, deeper, same⟩
    unfold bandsFrom
    split
    · exact List.forall_mem_cons.mpr ⟨first, others⟩
    · exact others

end Bands

section Building

variable (building : Building) (walled : building.hasWalls = true)
  (low_finite : building.minHeight.isFinite = true) (high_finite : building.height.isFinite = true)

include walled low_finite high_finite

theorem tiles_bandsFrom (bottom : Float) (tops : List Float)
    (lowest : ordinal building.minHeight ≤ ordinal bottom)
    (rising : (bottom :: tops).Pairwise (ordinal · < ordinal ·))
    (finite : ∀ x ∈ bottom :: tops, x.isFinite = true)
    (reached : ∃ x ∈ tops, ordinal x = ordinal building.height) :
    (∀ span ∈ (bandsFrom (stands building) bottom tops).head?, span.1 = bottom) ∧
      Tiles bottom building.height (bandsFrom (stands building) bottom tops) := by
  have high_number := number_of_isFinite _ high_finite
  induction tops generalizing bottom with
  | nil =>
    obtain ⟨x, member, -⟩ := reached
    cases member
  | cons top rest later =>
    obtain ⟨above, rest_rising⟩ := List.pairwise_cons.mp rising
    obtain ⟨bottom_finite, rest_finite⟩ := List.forall_mem_cons.mp finite
    have top_finite := rest_finite top List.mem_cons_self
    have bottom_number := number_of_isFinite bottom bottom_finite
    have top_number := number_of_isFinite top top_finite
    have above_top := (List.pairwise_cons.mp rest_rising).1
    have step := above top List.mem_cons_self
    have step_lt : bottom < top := (lt_iff _ _ bottom_number top_number).mpr step
    have begins : (bottom == bottom) = true := (beq_iff _ _ bottom_number bottom_number).mpr rfl
    obtain ⟨x, member, same⟩ := reached
    rcases List.mem_cons.mp member with rfl | deeper
    · have standing : stands building x = true := by
        rw [stands_iff building x walled low_finite high_finite top_finite]
        omega
      have rest_empty : bandsFrom (stands building) x rest = [] := by
        apply bandsFrom_eq_nil
        intro other other_member
        have beyond := above_top other other_member
        rw [← Bool.not_eq_true, stands_iff building other walled low_finite high_finite
          (rest_finite other (List.mem_cons_of_mem x other_member))]
        omega
      rw [bandsFrom, if_pos standing, rest_empty]
      refine ⟨by simp, ⟨_, rfl, begins⟩, ⟨_, rfl, ?_⟩, List.isChain_singleton _, by simpa⟩
      exact (beq_iff _ _ top_number high_number).mpr same
    · have beyond := above_top x deeper
      have standing : stands building top = true := by
        rw [stands_iff building top walled low_finite high_finite top_finite]
        omega
      obtain ⟨next, tiles⟩ := later top (by omega) rest_rising rest_finite ⟨x, deeper, same⟩
      rw [bandsFrom, if_pos standing]
      refine ⟨by simp, ⟨_, rfl, begins⟩, ?_, ?_, ?_⟩
      · obtain ⟨last, found, ends⟩ := tiles.ends
        exact ⟨last, List.mem_getLast?_cons found, ends⟩
      · exact List.isChain_cons.mpr ⟨next, tiles.joined⟩
      · exact List.forall_mem_cons.mpr ⟨step_lt, tiles.rising⟩

theorem bandsFrom_levels (bottom : Float) (levels : List Float)
    (rising : levels.Pairwise (ordinal · < ordinal ·)) (finite : ∀ x ∈ levels, x.isFinite = true)
    (less : ordinal building.minHeight < ordinal building.height)
    (low_level : ∃ x ∈ levels, ordinal x = ordinal building.minHeight)
    (high_level : ∃ x ∈ levels, ordinal x = ordinal building.height) :
    Tiles building.minHeight building.height (bandsFrom (stands building) bottom levels) ∧
      ∀ threshold : Float, threshold.isFinite = true →
        (∃ x ∈ levels, ordinal x = ordinal threshold) →
          Splits threshold (bandsFrom (stands building) bottom levels) := by
  obtain ⟨low, low_member, low_eq⟩ := low_level
  obtain ⟨below, above, rfl⟩ := List.append_of_mem low_member
  obtain ⟨-, upper, order⟩ := List.pairwise_append.mp rising
  obtain ⟨below_finite, upper_finite⟩ := List.forall_mem_append.mp finite
  have low_float := upper_finite low List.mem_cons_self
  have above_or_at (x : Float) (member : x ∈ below ++ low :: above) :
      ordinal x ≤ ordinal low ∨ x ∈ above := by
    rcases List.mem_append.mp member with before | after
    · exact .inl (order x before low List.mem_cons_self).le
    · rcases List.mem_cons.mp after with rfl | later
      · exact .inl le_rfl
      · exact .inr later
  have lower_none : ∀ top ∈ below, stands building top = false := by
    intro top member
    have before := order top member low List.mem_cons_self
    rw [← Bool.not_eq_true, stands_iff building top walled low_finite high_finite
      (below_finite top member)]
    omega
  have low_none : stands building low = false := by
    rw [← Bool.not_eq_true, stands_iff building low walled low_finite high_finite low_float]
    omega
  have reached : ∃ x ∈ above, ordinal x = ordinal building.height := by
    obtain ⟨high, member, high_eq⟩ := high_level
    rcases above_or_at high member with at_most | later
    · omega
    · exact ⟨high, later, high_eq⟩
  obtain ⟨next, tiles⟩ := tiles_bandsFrom building walled low_finite high_finite low above low_eq.ge
    upper upper_finite reached
  rw [bandsFrom_append (stands building) bottom low below above lower_none low_none]
  refine ⟨⟨?_, tiles.ends, tiles.joined, tiles.rising⟩, ?_⟩
  · obtain ⟨span, found, -⟩ := tiles.begins
    refine ⟨span, found, ?_⟩
    rw [next span found, beq_iff _ _ (number_of_isFinite low low_float)
      (number_of_isFinite _ low_finite), low_eq]
  · intro threshold threshold_finite ⟨x, member, same⟩
    apply splits_bandsFrom (stands building) threshold low above upper upper_finite threshold_finite
    rcases above_or_at x member with at_most | later
    · exact .inl (same ▸ at_most)
    · exact .inr ⟨x, later, same⟩

end Building

theorem walls_tile (buildings : List Building) (extrusion : Extrusion) (index : Nat)
    (building : Building) (found : buildings[index]? = some building)
    (walled : building.hasWalls = true) (low_finite : building.minHeight.isFinite = true)
    (high_finite : building.height.isFinite = true) :
    let steps := plan (heights buildings extrusion) buildings (Wall.ofBuildings buildings)
    (building.minHeight < building.height → ∀ part < building.parts.length,
      Tiles building.minHeight building.height (spans index part steps) ∧
        ∀ threshold ∈ [extrusion.lowHeight, extrusion.middleHeight], threshold.isFinite = true →
          Splits threshold (spans index part steps)) ∧
      (building.height ≤ building.minHeight →
        ∀ side bottom top, Step.wall side bottom top ∈ steps → side.building ≠ index) := by
  have low_number := number_of_isFinite _ low_finite
  have high_number := number_of_isFinite _ high_finite
  obtain ⟨rising, finite, covers⟩ := levels_normalize (heights buildings extrusion)
  have sceneLevels := levels_normalize (extrusion.lowHeight :: extrusion.middleHeight ::
    buildings.flatMap fun building => [building.height, building.minHeight])
  have level (x : Float) (member : x ∈ extrusion.lowHeight :: extrusion.middleHeight ::
      buildings.flatMap fun building => [building.height, building.minHeight])
      (x_finite : x.isFinite = true) :
      ∃ y ∈ normalize (heights buildings extrusion), ordinal y = ordinal x := by
    obtain ⟨y, kept, same⟩ := sceneLevels.covers x member x_finite
    obtain ⟨z, found, equal⟩ := covers y kept (sceneLevels.finite y kept)
    exact ⟨z, found, equal.trans same⟩
  have own (x : Float) (member : x ∈ [building.height, building.minHeight]) :
      x ∈ extrusion.lowHeight :: extrusion.middleHeight ::
        buildings.flatMap fun building => [building.height, building.minHeight] :=
    List.mem_cons_of_mem _ (List.mem_cons_of_mem _
      (List.mem_flatMap.mpr ⟨building, List.mem_of_getElem? found, member⟩))
  refine ⟨?_, ?_⟩
  · intro less part inside
    have once := filter_ofBuildings buildings index part building _ found
      (List.getElem?_eq_getElem inside)
    have spans_eq := spans_planFrom buildings.toArray (Wall.ofBuildings buildings) index part
      building (by rwa [List.getElem?_toArray]) _ once 0 (normalize (heights buildings extrusion))
    rw [lt_iff _ _ low_number high_number] at less
    obtain ⟨tiles, splits⟩ := bandsFrom_levels building walled low_finite high_finite 0 _ rising
      finite less (level _ (own _ (by simp)) low_finite) (level _ (own _ (by simp)) high_finite)
    rw [plan, spans_eq]
    refine ⟨tiles, ?_⟩
    intro threshold member threshold_finite
    apply splits threshold threshold_finite
    exact level threshold (List.mem_append_left _ member) threshold_finite
  · intro high_le side bottom top member same
    obtain ⟨top_member, standing⟩ := mem_planFrom _ _ side 0 bottom top _ member
    rw [le_iff _ _ high_number low_number] at high_le
    rw [same, List.getElem?_toArray, found, Option.any_some,
      stands_iff building top walled low_finite high_finite (finite top top_member)] at standing
    omega

/-- A building with one wall, above the ground and on both sides of a change of light. -/
def raised : Building where
  figure := ⟨Table.empty, [], []⟩
  height := 3
  minHeight := 1
  wallColor := Color.white
  defaultWallColor := Color.white
  fill := Color.white
  stroke := Color.black
  defaultFill := Color.white
  defaultStroke := Color.black
  isConstruction := false
  hasWalls := true
  parts := [⟨⟨⟨0⟩, ⟨0⟩⟩, ⟨⟨0⟩, ⟨0⟩⟩, 0⟩]

theorem raised_tiles :
    raised.hasWalls = true ∧ raised.minHeight.isFinite = true ∧ raised.height.isFinite = true ∧
      raised.minHeight < raised.height ∧
        Tiles raised.minHeight raised.height
          (spans 0 0 (plan (heights [raised] {}) [raised] (Wall.ofBuildings [raised]))) := by
  have low_finite : raised.minHeight.isFinite = true := by decide +kernel
  have high_finite : raised.height.isFinite = true := by decide +kernel
  have less : raised.minHeight < raised.height := by decide +kernel
  have tiling := (walls_tile [raised] {} 0 raised rfl rfl low_finite high_finite).1 less
  exact ⟨rfl, low_finite, high_finite, less, (tiling 0 (by decide)).1⟩

end Cartograph.Bands

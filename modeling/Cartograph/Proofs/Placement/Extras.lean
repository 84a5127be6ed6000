import Cartograph.Proofs.Number.Special
import Cartograph.Proofs.Number.Whole
import Cartograph.Proofs.Placement.Occupancy

/-! The row of extra icons. All their cells are probed before the first of them is placed, and each
one again in its turn, when its earlier siblings have reserved their squares. So all of them are
painted exactly if no icon lies in the square of an earlier one, which holds as long as the squares
reach less far than the icons are apart. -/

namespace Cartograph

namespace Feature

section Row

variable (feature : Feature) (y : Float)

def extraPosition (left : Float) : Point Float := feature.point + (⟨left, y⟩ : Point Float)

def extraCell (left : Float) : Cell := (feature.extraPosition y left).cell

def extraPainted (reach : Int) (left : Float) (icon : Icon) : Event :=
  .painted (iconClaim reach (feature.extraPosition y left))
    (icon.steps (feature.extraPosition y left).truncate feature.isOutlined)

def Apart (reach : Int) (first second : Float × Icon) : Prop :=
  (Area.square (feature.extraCell y first.1) reach).contains (feature.extraCell y second.1) = false

theorem cell_truncate (p : Point Float) : p.truncate.cell = p.cell := by
  rw [Point.cell, Point.cell, Point.truncate, Number.toCell_truncate, Number.toCell_truncate]

theorem iconEvent_extra (grid : Grid) (left : Float) (icon : Icon) :
    feature.iconEvent (some grid) icon none (feature.extraPosition y left) =
      if grid.isTaken (feature.extraCell y left) then .hidden
      else feature.extraPainted y grid.reach left icon := by
  rw [extraPainted, iconClaim, cell_truncate]
  unfold iconEvent Board.attempt
  simp only [cell_truncate, List.any_cons, List.any_nil, Bool.or_false]
  rfl

theorem extraEvents_cons (grid : Grid) (left : Float) (icon : Icon) (rest : List (Float × Icon)) :
    feature.extraEvents y (some grid) ((left, icon) :: rest) =
      feature.iconEvent (some grid) icon none (feature.extraPosition y left) ::
        feature.extraEvents y (some (grid.afterAll
          [feature.iconEvent (some grid) icon none (feature.extraPosition y left)])) rest := by
  rw [← Board.after_some]
  rfl

theorem isTaken_after_extra (grid : Grid) (left : Float) (icon : Icon) (cell : Cell) :
    (grid.afterAll [feature.extraPainted y grid.reach left icon]).isTaken cell =
      (grid.isTaken cell ||
        (Area.square (feature.extraCell y left) grid.reach).contains cell) := by
  rw [extraPainted, iconClaim, cell_truncate]
  change (!grid.inside cell || (_ || _)) = _
  rw [Grid.isTaken, Bool.or_assoc, Bool.or_comm (List.any _ _)]
  rfl

theorem reach_afterAll (grid : Grid) (events : List Event) :
    (grid.afterAll events).reach = grid.reach := rfl

/-- The second round of probes succeeds for the whole row exactly if the first one does and the
icons are apart. -/
theorem extraEvents_eq_iff (grid : Grid) (row : List (Float × Icon)) :
    feature.extraEvents y (some grid) row =
        (row.map fun (left, icon) => feature.extraPainted y grid.reach left icon) ↔
      (∀ entry ∈ row, grid.isTaken (feature.extraCell y entry.1) = false) ∧
        row.Pairwise (feature.Apart y grid.reach) := by
  induction row generalizing grid with
  | nil => simp [extraEvents]
  | cons entry rest later =>
    obtain ⟨left, icon⟩ := entry
    rw [extraEvents_cons, List.map_cons, List.cons.injEq, List.forall_mem_cons,
      List.pairwise_cons, iconEvent_extra]
    cases blocked : grid.isTaken (feature.extraCell y left) with
    | true => simp [extraPainted]
    | false =>
      have next := later (grid.afterAll [feature.extraPainted y grid.reach left icon])
      rw [reach_afterAll] at next
      rw [if_neg Bool.false_ne_true, next]
      simp only [isTaken_after_extra, Bool.or_eq_false_iff]
      constructor
      · rintro ⟨-, free, apart⟩
        exact ⟨⟨trivial, fun next member => (free next member).1⟩,
          fun next member => (free next member).2, apart⟩
      · rintro ⟨⟨-, free⟩, first, apart⟩
        exact ⟨trivial, fun next member => ⟨free next member, first next member⟩, apart⟩

theorem extraEvents_getElem (grid : Grid) (row : List (Float × Icon)) (index : Nat)
    (left : Float) (icon : Icon) (found : row[index]? = some (left, icon)) :
    (feature.extraEvents y (some grid) row)[index]? =
      some (feature.iconEvent (some (grid.afterAll
        ((feature.extraEvents y (some grid) row).take index))) icon none
          (feature.extraPosition y left)) := by
  induction row generalizing grid index with
  | nil => cases found
  | cons entry rest later =>
    obtain ⟨first, other⟩ := entry
    rw [extraEvents_cons]
    cases index with
    | zero =>
      obtain ⟨rfl, rfl⟩ := Prod.mk.inj (Option.some.inj found)
      rfl
    | succ before =>
      generalize feature.iconEvent (some grid) other none _ = event
      have next := later (grid.afterAll [event]) before found
      rw [← Grid.afterAll_cons] at next
      exact next

theorem length_extraEvents (board : Board) (row : List (Float × Icon)) :
    (feature.extraEvents y board row).length = row.length := by
  induction row generalizing board with
  | nil => rfl
  | cons entry rest later => exact congrArg Nat.succ (later _)

theorem isTaken_afterAll (grid : Grid) (events : List Event) (cell : Cell) :
    (grid.afterAll events).isTaken cell = true ↔ grid.isTaken cell = true ∨
      ∃ claim steps, .painted claim steps ∈ events ∧ claim.area.contains cell = true := by
  have taken : (grid.afterAll events).isTaken cell = true ↔ grid.isTaken cell = true ∨
      ∃ area ∈ events.filterMap Event.area?, area.contains cell = true := by
    change (!grid.inside cell || List.any (_ ++ _) _) = true ↔ (!grid.inside cell || _) = true ∨ _
    rw [List.any_append, Bool.or_eq_true, Bool.or_eq_true, Bool.or_eq_true, List.any_reverse,
      List.any_eq_true, or_comm (a := ∃ area, _), or_assoc]
  rw [taken]
  apply or_congr_right
  constructor
  · rintro ⟨area, listed, contained⟩
    obtain ⟨event, member, reserved⟩ := List.mem_filterMap.mp listed
    cases event with
    | painted claim steps =>
      cases reserved
      exact ⟨claim, steps, member, contained⟩
    | replaced | hidden => cases reserved
  · rintro ⟨claim, steps, member, contained⟩
    exact ⟨claim.area, List.mem_filterMap.mpr ⟨_, member, rfl⟩, contained⟩

end Row

section Placing

variable (feature : Feature) (cursor : Cursor) (grid : Grid)

/-- There are extra icons, the main icon is painted, and all cells of the row are free. -/
structure IsReady : Prop where
  present : feature.extraIcons ≠ []
  headed : cursor.isMainPainted = true
  free : ∀ entry ∈ feature.extraRow, grid.isTaken (feature.extraCell cursor.y entry.1) = false

structure PaintsAll : Prop where
  painted : (feature.placeExtras cursor (some grid)).events = feature.extraRow.map
    fun (left, icon) => feature.extraPainted cursor.y grid.reach left icon
  moved : (feature.placeExtras cursor (some grid)).cursor =
    { cursor with y := cursor.y + Icon.side }

structure PaintsNone : Prop where
  unpainted : (feature.placeExtras cursor (some grid)).events.flatMap Event.steps = []
  kept : (feature.placeExtras cursor (some grid)).cursor = cursor
  grid : Board.afterAll (some grid) (feature.placeExtras cursor (some grid)).events = some grid

def AllOrNone : Prop := feature.PaintsAll cursor grid ∨ feature.PaintsNone cursor grid

theorem isReady_iff :
    feature.IsReady cursor grid ↔
      (feature.extraIcons.isEmpty || !cursor.isMainPainted || feature.extraRow.any fun (left, _) =>
        Board.isTaken (some grid) (feature.extraCell cursor.y left)) = false := by
  simp only [Bool.or_eq_false_iff, List.isEmpty_eq_false_iff, Bool.not_eq_false', List.any_eq_false,
    Bool.not_eq_true]
  exact ⟨fun ready => ⟨⟨ready.present, ready.headed⟩, ready.free⟩,
    fun guard => ⟨guard.1.1, guard.1.2, guard.2⟩⟩

theorem placeExtras_ready (ready : feature.IsReady cursor grid) :
    feature.placeExtras cursor (some grid) = ⟨{ cursor with y := cursor.y + Icon.side },
      feature.extraEvents cursor.y (some grid) feature.extraRow⟩ := by
  have guard := (feature.isReady_iff cursor grid).mp ready
  unfold placeExtras
  exact if_neg (by rw [Bool.not_eq_true]; exact guard)

theorem placeExtras_unready (unready : ¬ feature.IsReady cursor grid) :
    feature.placeExtras cursor (some grid) = ⟨cursor, []⟩ := by
  rw [isReady_iff, Bool.not_eq_false] at unready
  unfold placeExtras
  exact if_pos unready

theorem paintsAll_iff (ready : feature.IsReady cursor grid) :
    feature.PaintsAll cursor grid ↔
      feature.extraRow.Pairwise (feature.Apart cursor.y grid.reach) := by
  have placed := feature.placeExtras_ready cursor grid ready
  have all := feature.extraEvents_eq_iff cursor.y grid feature.extraRow
  constructor
  · intro painted
    have events := painted.painted
    rw [placed] at events
    exact (all.mp events).2
  · intro apart
    constructor
    · rw [placed]
      exact all.mpr ⟨ready.free, apart⟩
    · rw [placed]

theorem length_iconsFrom (left : Float) (icons : List Icon) :
    (iconsFrom left icons).length = icons.length := by
  induction icons generalizing left with
  | nil => rfl
  | cons icon rest later => exact congrArg Nat.succ (later _)

theorem not_paintsNone (ready : feature.IsReady cursor grid) :
    ¬ feature.PaintsNone cursor grid := by
  intro none_painted
  have unchanged := none_painted.grid
  rw [feature.placeExtras_ready cursor grid ready, Board.afterAll_some,
    Option.some.injEq] at unchanged
  have free := ready.free
  have row_length := length_iconsFrom
    (-(Float.ofNat feature.extraIcons.length - 1) * Icon.side / 2) feature.extraIcons
  change feature.extraRow.length = _ at row_length
  cases row : feature.extraRow with
  | nil =>
    rw [row] at row_length
    exact ready.present (List.length_eq_zero_iff.mp row_length.symm)
  | cons entry rest =>
    obtain ⟨left, icon⟩ := entry
    rw [row] at unchanged free
    simp only [extraEvents_cons, iconEvent_extra,
      if_neg (Bool.eq_false_iff.mp (free _ List.mem_cons_self))] at unchanged
    have longer := congrArg (fun grid : Grid => grid.reserved.length) unchanged
    rw [Grid.afterAll_cons] at longer
    simp [Grid.afterAll, extraPainted, Event.area?] at longer
    omega

theorem allOrNone_iff :
    feature.AllOrNone cursor grid ↔ (feature.IsReady cursor grid →
      feature.extraRow.Pairwise (feature.Apart cursor.y grid.reach)) := by
  by_cases ready : feature.IsReady cursor grid
  · rw [AllOrNone, feature.paintsAll_iff cursor grid ready,
      or_iff_left (feature.not_paintsNone cursor grid ready)]
    exact ⟨fun apart _ => apart, fun apart => apart ready⟩
  · apply iff_of_true _ fun found => absurd found ready
    right
    have placed := feature.placeExtras_unready cursor grid ready
    constructor
    · rw [placed]
      rfl
    · rw [placed]
    · rw [placed]
      rfl

end Placing

section Spacing

open Number

theorem value_side : value Icon.side = 16 := by
  rw [value_of_unpack Icon.side .positive (2 ^ 52) (-48) (by decide) rfl]
  norm_num [Float.Model.UnpackedFloat.Sign.apply]

/-- While the distances are whole numbers of few enough bits, every step adds the side exactly. -/
theorem iconsFrom_spaced (icons : List Icon) (left : Float) (start : ℤ)
    (finite : left.isFinite = true) (whole : value left = start) (low : -(2 ^ 52) ≤ start)
    (high : start + 16 * icons.length ≤ 2 ^ 52) :
    (∀ entry ∈ iconsFrom left icons, entry.1.isFinite = true ∧ start ≤ value entry.1) ∧
      (iconsFrom left icons).Pairwise fun first second => value first.1 + 16 ≤ value second.1 := by
  induction icons generalizing left start with
  | nil => exact ⟨fun entry member => absurd member List.not_mem_nil, List.Pairwise.nil⟩
  | cons icon rest later =>
    rw [List.length_cons] at high
    have sum := add_computes left Icon.side finite rfl
    have next : value left + value Icon.side = ((start + 16 : ℤ) : ℚ) := by
      rw [whole, value_side]
      push_cast
      rfl
    rw [next] at sum
    obtain ⟨next_finite, next_whole⟩ := sum.exactly (isDouble_intCast _ (by omega))
    obtain ⟨above, spaced⟩ := later _ (start + 16) next_finite next_whole (by omega)
      (by push_cast at high; omega)
    have beyond (entry : Float × Icon) (member : entry ∈ iconsFrom (left + Icon.side) rest) :
        value left + 16 ≤ value entry.1 := by
      have bound := (above entry member).2
      push_cast at bound
      rw [whole]
      exact bound
    rw [iconsFrom, List.forall_mem_cons, List.pairwise_cons]
    constructor
    · refine ⟨⟨finite, whole.ge⟩, fun entry member => ⟨(above entry member).1, ?_⟩⟩
      have bound := beyond entry member
      rw [whole] at bound
      linarith
    · exact ⟨beyond, spaced⟩

theorem value_firstLeft (count : Nat) (few : count ≤ 2 ^ 40) :
    (-(Float.ofNat count - 1) * Icon.side / 2).isFinite = true ∧
      value (-(Float.ofNat count - 1) * Icon.side / 2) = ((-8 * (count - 1) : ℤ) : ℚ) := by
  obtain ⟨count_finite, counted⟩ := value_ofNat count (by omega)
  have less := sub_computes (Float.ofNat count) 1 count_finite rfl
  rw [counted, value_one] at less
  rw [show (count : ℚ) - 1 = ((count - 1 : ℤ) : ℚ) by push_cast; rfl] at less
  obtain ⟨less_finite, less_eq⟩ := less.exactly (isDouble_intCast _ (by omega))
  obtain ⟨neg_finite, neg_eq⟩ := value_neg _ less_finite
  have wide := mul_computes _ Icon.side neg_finite rfl
  rw [neg_eq, less_eq, value_side,
    show -((count - 1 : ℤ) : ℚ) * 16 = ((-16 * (count - 1) : ℤ) : ℚ) by push_cast; ring] at wide
  obtain ⟨wide_finite, wide_eq⟩ := wide.exactly (isDouble_intCast _ (by omega))
  have half := div_computes _ 2 wide_finite rfl (by rw [value_two]; norm_num)
  rw [wide_eq, value_two,
    show ((-16 * (count - 1) : ℤ) : ℚ) / 2 = ((-8 * (count - 1) : ℤ) : ℚ) by
      push_cast; ring] at half
  exact half.exactly (isDouble_intCast _ (by omega))

theorem extraRow_spaced (feature : Feature) (few : feature.extraIcons.length ≤ 2 ^ 40) :
    (∀ entry ∈ feature.extraRow, entry.1.isFinite = true) ∧
      feature.extraRow.Pairwise fun first second => value first.1 + 16 ≤ value second.1 := by
  obtain ⟨finite, first⟩ := value_firstLeft feature.extraIcons.length few
  obtain ⟨above, spaced⟩ := iconsFrom_spaced feature.extraIcons _ _ finite first (by omega)
    (by omega)
  exact ⟨fun entry member => (above entry member).1, spaced⟩

/-- Coordinates that are no finite numbers have no cell on a grid of a usual size. -/
theorem finite_of_cell (x : Float) (number : x.isNaN = false) (width : Nat)
    (narrow : width ≤ 2 ^ 52) (above : 0 ≤ toCell x) (below : toCell x < width) :
    x.isFinite = true := by
  by_contra special
  rw [Bool.not_eq_true] at special
  rcases parts_of_special x special with absent | ⟨negative, infinite⟩
  · rw [isNaN_eq, absent] at number
    cases number
  · rw [toCell, infinite] at above below
    cases negative with
    | true => exact absurd above (by decide)
    | false =>
      change 2 ^ 63 - 1 < (width : Int) at below
      omega

variable (feature : Feature) (y : Float) (grid : Grid)

theorem apart_of_spaced (near : grid.overlap < 16) (narrow : grid.width ≤ 2 ^ 52)
    (finite : feature.point.x.isFinite = true) (first second : Float × Icon)
    (first_finite : first.1.isFinite = true) (second_finite : second.1.isFinite = true)
    (spaced : value first.1 + 16 ≤ value second.1)
    (first_free : grid.isTaken (feature.extraCell y first.1) = false)
    (second_free : grid.isTaken (feature.extraCell y second.1) = false) :
    feature.Apart y grid.reach first second := by
  have first_inside := Grid.inside_of_free grid _ first_free
  have second_inside := Grid.inside_of_free grid _ second_free
  simp only [Grid.inside, Bool.and_eq_true, decide_eq_true_eq] at first_inside second_inside
  obtain ⟨⟨⟨first_left, first_right⟩, -⟩, -⟩ := first_inside
  obtain ⟨⟨⟨second_left, second_right⟩, -⟩, -⟩ := second_inside
  change 0 ≤ toCell (feature.point.x + first.1) at first_left
  change toCell (feature.point.x + first.1) < grid.width at first_right
  change 0 ≤ toCell (feature.point.x + second.1) at second_left
  change toCell (feature.point.x + second.1) < grid.width at second_right
  have x_finite := finite_of_cell _ (number_add _ _ finite first_finite) _ narrow first_left
    first_right
  have next_finite := finite_of_cell _ (number_add _ _ finite second_finite) _ narrow second_left
    second_right
  have x_cell := toCell_eq _ x_finite
  have next_cell := toCell_eq _ next_finite
  have apart := cut_apart _ _ _ _ 16 (add_computes _ _ finite first_finite)
    (add_computes _ _ finite second_finite) x_finite next_finite
    (by push_cast; linarith) (by omega) (by omega)
  have reach : grid.reach = grid.overlap := if_pos (by change grid.overlap < 2 ^ 63; omega)
  rw [Apart, ← Bool.not_eq_true, Area.contains_iff, Area.square, Area.mem_span_iff, reach]
  rintro ⟨⟨-, close⟩, -⟩
  change toCell (feature.point.x + second.1) < toCell (feature.point.x + first.1) + _ at close
  omega

end Spacing

/-- An extra icon is painted in its turn, unless it lies in what an earlier one has reserved. -/
inductive Turn (feature : Feature) (cursor : Cursor) (grid : Grid) (index : Nat) (left : Float)
    (icon : Icon) : Prop
  | painted (drawn : (feature.placeExtras cursor (some grid)).events[index]? =
        some (feature.extraPainted cursor.y grid.reach left icon))
      (apart : ∀ earlier < index, ∀ claim steps,
        (feature.placeExtras cursor (some grid)).events[earlier]? = some (.painted claim steps) →
          claim.area.contains (feature.extraCell cursor.y left) = false)
  | hidden (lost : (feature.placeExtras cursor (some grid)).events[index]? = some .hidden)
      (earlier : Nat) (before : earlier < index) (claim : Claim) (steps : List (Step Empty))
      (drawn : (feature.placeExtras cursor (some grid)).events[earlier]? =
        some (.painted claim steps))
      (contained : claim.area.contains (feature.extraCell cursor.y left) = true)

theorem turn_of_ready (feature : Feature) (cursor : Cursor) (grid : Grid)
    (ready : feature.IsReady cursor grid) (index : Nat) (left : Float) (icon : Icon)
    (found : feature.extraRow[index]? = some (left, icon)) :
    feature.Turn cursor grid index left icon := by
  have event := feature.extraEvents_getElem cursor.y grid feature.extraRow index left icon found
  have placed : (feature.placeExtras cursor (some grid)).events =
      feature.extraEvents cursor.y (some grid) feature.extraRow := by
    rw [feature.placeExtras_ready cursor grid ready]
  rw [← placed, iconEvent_extra, reach_afterAll] at event
  have free := ready.free _ (List.mem_of_getElem? found)
  have taken := isTaken_afterAll grid ((feature.placeExtras cursor (some grid)).events.take index)
    (feature.extraCell cursor.y left)
  rw [free, or_iff_right Bool.false_ne_true] at taken
  have earlier (claim : Claim) (steps : List (Step Empty)) :
      .painted claim steps ∈ (feature.placeExtras cursor (some grid)).events.take index ↔
        ∃ before < index, (feature.placeExtras cursor (some grid)).events[before]? =
          some (.painted claim steps) := by
    simp only [List.mem_iff_getElem?, List.getElem?_take, Option.ite_none_right_eq_some]
  split at event
  · next blocked =>
    obtain ⟨claim, steps, member, contained⟩ := taken.mp blocked
    obtain ⟨before, less, drawn⟩ := (earlier claim steps).mp member
    exact .hidden event before less claim steps drawn contained
  · next clear =>
    refine .painted event fun before less claim steps drawn => ?_
    rw [← Bool.not_eq_true]
    intro contained
    exact clear (taken.mpr ⟨claim, steps, (earlier claim steps).mpr ⟨before, less, drawn⟩,
      contained⟩)

theorem allOrNone_of_near (feature : Feature) (cursor : Cursor) (grid : Grid)
    (near : grid.overlap < 16) (narrow : grid.width ≤ 2 ^ 52)
    (few : feature.extraIcons.length ≤ 2 ^ 40) (finite : feature.point.x.isFinite = true) :
    feature.AllOrNone cursor grid := by
  rw [allOrNone_iff]
  intro ready
  obtain ⟨row_finite, spaced⟩ := extraRow_spaced feature few
  refine spaced.imp_of_mem fun {first second} first_listed second_listed gap => ?_
  exact apart_of_spaced feature cursor.y grid near narrow finite first second
    (row_finite first first_listed) (row_finite second second_listed) gap
    (ready.free first first_listed) (ready.free second second_listed)

structure Outcome (feature : Feature) (cursor : Cursor) (grid : Grid) : Prop where
  unready : ¬ feature.IsReady cursor grid → feature.placeExtras cursor (some grid) = ⟨cursor, []⟩
  moved : feature.IsReady cursor grid → (feature.placeExtras cursor (some grid)).cursor =
    { cursor with y := cursor.y + Icon.side }
  attempted : feature.IsReady cursor grid →
    (feature.placeExtras cursor (some grid)).events.length = feature.extraIcons.length
  turn : feature.IsReady cursor grid → ∀ index left icon,
    feature.extraRow[index]? = some (left, icon) → feature.Turn cursor grid index left icon
  allOrNone : feature.AllOrNone cursor grid ↔ (feature.IsReady cursor grid →
    feature.extraRow.Pairwise (feature.Apart cursor.y grid.reach))

theorem extras_outcome (feature : Feature) (cursor : Cursor) (grid : Grid) :
    feature.Outcome cursor grid ∧
      (grid.overlap < 16 → grid.width ≤ 2 ^ 52 → feature.extraIcons.length ≤ 2 ^ 40 →
        feature.point.x.isFinite = true → feature.AllOrNone cursor grid) := by
  refine ⟨⟨feature.placeExtras_unready cursor grid, ?_, ?_, feature.turn_of_ready cursor grid,
    feature.allOrNone_iff cursor grid⟩, feature.allOrNone_of_near cursor grid⟩
  · intro ready
    rw [feature.placeExtras_ready cursor grid ready]
  · intro ready
    rw [feature.placeExtras_ready cursor grid ready, length_extraEvents]
    exact length_iconsFrom _ _

end Feature

/-- A feature so close to the border of the canvas that the first of its two extra icons is cut to
a cell nearer to the second one. -/
def borderpost : Feature :=
  { signpost with point := ⟨7.5, 4⟩, labels := [], extraIcons := [{}, {}] }

def borderGrid (overlap : Nat) : Grid :=
  (Grid.ofSize 40 40 overlap).afterAll
    (borderpost.placeMain {} (some (Grid.ofSize 40 40 overlap))).events

theorem borderpost_painted :
    borderpost.AllOrNone ⟨16, true⟩ (borderGrid 12) ∧
      (borderpost.placeExtras ⟨16, true⟩ (some (borderGrid 12))).events.map Event.isPainted =
        [true, true] := by
  refine ⟨(borderpost.extras_outcome ⟨16, true⟩ (borderGrid 12)).2 ?_ ?_ ?_ ?_, ?_⟩
  all_goals decide +kernel

theorem borderpost_split :
    (Features.events .no [borderpost] (Features.board ⟨40, 40⟩ 16)).map Event.isPainted =
        [true, true, false] ∧
      ¬ borderpost.AllOrNone ⟨16, true⟩ (borderGrid 16) := by
  have sorted : Feature.sort [borderpost] = [borderpost] := List.mergeSort_singleton borderpost
  have placed :
      (borderpost.placeExtras ⟨16, true⟩ (some (borderGrid 16))).events.map Event.isPainted =
          [true, false] ∧
        (borderpost.placeExtras ⟨16, true⟩ (some (borderGrid 16))).cursor.y.toBits ≠
          (16 : Float).toBits := by
    decide +kernel
  constructor
  · unfold Features.events
    rw [sorted]
    decide +kernel
  · rintro (all | none)
    · have second : false ∈ (borderpost.placeExtras ⟨16, true⟩
          (some (borderGrid 16))).events.map Event.isPainted := by
        rw [placed.1]
        exact List.mem_cons_of_mem _ List.mem_cons_self
      rw [all.painted, List.map_map] at second
      obtain ⟨entry, -, unpainted⟩ := List.mem_map.mp second
      cases unpainted
    · exact placed.2 (congrArg (fun cursor => cursor.y.toBits) none.kept)

end Cartograph

import Mathlib
import Cartograph.Building.Bands
import Cartograph.Proofs.Number.Order

/-! The heights that cut the vertical axis. Sorting and dropping equal neighbours leaves every
finite height once, as a number, and strictly ascending. -/

namespace Cartograph.Bands

open Number

/-- What is kept of some heights: finite ones only, strictly ascending, none left out. -/
structure Levels (heights levels : List Float) : Prop where
  rising : levels.Pairwise (ordinal · < ordinal ·)
  finite : ∀ x ∈ levels, x.isFinite = true
  covers : ∀ x ∈ heights, x.isFinite = true → ∃ y ∈ levels, ordinal y = ordinal x

theorem mem_sort (heights : List Float) (x : Float) : x ∈ sort heights ↔ x ∈ heights :=
  (List.mergeSort_perm heights _).mem_iff

theorem ordered_sort (heights : List Float) (finite : ∀ x ∈ heights, x.isFinite = true) :
    (sort heights).Pairwise (ordinal · ≤ ordinal ·) := by
  have sorted : (sort heights).Pairwise fun a b =>
      (compare (Rank.ofFloat a) (Rank.ofFloat b)).isLE = true := by
    apply List.pairwise_mergeSort
    · intro a b c first second
      rw [isLE_compare_iff] at first second ⊢
      exact first.trans second
    · intro a b
      rw [Bool.or_eq_true, isLE_compare_iff, isLE_compare_iff]
      exact le_total _ _
  apply sorted.imp_of_mem
  intro a b left right before
  rw [mem_sort] at left right
  exact ordinal_le_of_rank a b (number_of_isFinite a (finite a left))
    (number_of_isFinite b (finite b right)) before

theorem mem_dropEqualAfter (kept x : Float) (rest : List Float)
    (member : x ∈ dropEqualAfter kept rest) : x ∈ rest := by
  induction rest generalizing kept with
  | nil => exact member
  | cons y others later =>
    unfold dropEqualAfter at member
    split at member
    · exact List.mem_cons_of_mem y (later kept member)
    · rcases List.mem_cons.mp member with rfl | deeper
      · exact List.mem_cons_self
      · exact List.mem_cons_of_mem y (later y deeper)

theorem rising_dropEqualAfter (kept : Float) (rest : List Float)
    (finite : ∀ x ∈ kept :: rest, x.isFinite = true)
    (ordered : (kept :: rest).Pairwise (ordinal · ≤ ordinal ·)) :
    (kept :: dropEqualAfter kept rest).Pairwise (ordinal · < ordinal ·) := by
  induction rest generalizing kept with
  | nil => exact List.pairwise_singleton _ _
  | cons x others later =>
    obtain ⟨below, above⟩ := List.pairwise_cons.mp ordered
    obtain ⟨kept_finite, rest_finite⟩ := List.forall_mem_cons.mp finite
    obtain ⟨x_finite, others_finite⟩ := List.forall_mem_cons.mp rest_finite
    have kept_number := number_of_isFinite kept kept_finite
    have x_number := number_of_isFinite x x_finite
    unfold dropEqualAfter
    split
    · apply later kept (List.forall_mem_cons.mpr ⟨kept_finite, others_finite⟩)
      exact List.pairwise_cons.mpr
        ⟨fun y member => below y (List.mem_cons_of_mem x member), above.of_cons⟩
    · next other =>
      have rest := later x rest_finite above
      have step : ordinal kept < ordinal x := by
        have at_most := below x List.mem_cons_self
        rw [beq_iff x kept x_number kept_number] at other
        omega
      refine List.pairwise_cons.mpr ⟨?_, rest⟩
      intro y member
      rcases List.mem_cons.mp member with rfl | deeper
      · exact step
      · exact step.trans ((List.pairwise_cons.mp rest).1 y deeper)

theorem covers_dropEqualAfter (kept : Float) (rest : List Float)
    (finite : ∀ x ∈ kept :: rest, x.isFinite = true) :
    ∀ x ∈ kept :: rest, ∃ y ∈ kept :: dropEqualAfter kept rest, ordinal y = ordinal x := by
  induction rest generalizing kept with
  | nil => exact fun x member => ⟨x, member, rfl⟩
  | cons x others later =>
    obtain ⟨kept_finite, rest_finite⟩ := List.forall_mem_cons.mp finite
    obtain ⟨x_finite, others_finite⟩ := List.forall_mem_cons.mp rest_finite
    have kept_number := number_of_isFinite kept kept_finite
    have x_number := number_of_isFinite x x_finite
    unfold dropEqualAfter
    split
    · next same =>
      have found := later kept (List.forall_mem_cons.mpr ⟨kept_finite, others_finite⟩)
      intro y member
      rcases List.mem_cons.mp member with rfl | deeper
      · exact found y List.mem_cons_self
      · rcases List.mem_cons.mp deeper with rfl | deepest
        · exact ⟨kept, List.mem_cons_self, ((beq_iff _ _ x_number kept_number).mp same).symm⟩
        · exact found y (List.mem_cons_of_mem kept deepest)
    · intro y member
      rcases List.mem_cons.mp member with rfl | deeper
      · exact ⟨y, List.mem_cons_self, rfl⟩
      · obtain ⟨z, found, equal⟩ := later x rest_finite y deeper
        exact ⟨z, List.mem_cons_of_mem kept found, equal⟩

theorem mem_normalize (heights : List Float) (x : Float) (member : x ∈ normalize heights) :
    x ∈ heights := by
  have kept : x ∈ sort (heights.filter (·.isFinite)) := by
    unfold normalize at member
    cases sorted : sort (heights.filter (·.isFinite)) with
    | nil =>
      rw [sorted] at member
      exact member
    | cons first rest =>
      rw [sorted] at member
      rcases List.mem_cons.mp member with rfl | deeper
      · exact List.mem_cons_self
      · exact List.mem_cons_of_mem first (mem_dropEqualAfter first x rest deeper)
  exact (List.mem_filter.mp ((mem_sort _ x).mp kept)).1

theorem levels_normalize (heights : List Float) : Levels heights (normalize heights) := by
  have kept_finite : ∀ x ∈ sort (heights.filter (·.isFinite)), x.isFinite = true := by
    intro x member
    rw [mem_sort] at member
    exact (List.mem_filter.mp member).2
  have ordered := ordered_sort (heights.filter (·.isFinite)) fun x member =>
    (List.mem_filter.mp member).2
  have sorted (x : Float) (member : x ∈ heights) (finite : x.isFinite = true) :
      x ∈ sort (heights.filter (·.isFinite)) := by
    rw [mem_sort]
    exact List.mem_filter.mpr ⟨member, finite⟩
  unfold normalize
  generalize sort (heights.filter (·.isFinite)) = kept at kept_finite ordered sorted ⊢
  cases kept with
  | nil =>
    exact ⟨List.Pairwise.nil, kept_finite, fun x member finite => ⟨x, sorted x member finite, rfl⟩⟩
  | cons first rest =>
    constructor
    · exact rising_dropEqualAfter first rest kept_finite ordered
    · intro x member
      rcases List.mem_cons.mp member with rfl | deeper
      · exact kept_finite x List.mem_cons_self
      · exact kept_finite x (List.mem_cons_of_mem first (mem_dropEqualAfter first x rest deeper))
    · intro x member finite
      exact covers_dropEqualAfter first rest kept_finite x (sorted x member finite)

/-- A finite height is equal as a number to an entry of both lists or of none. -/
def SameEntries (heights others : List Float) : Prop :=
  ∀ x : Float, x.isFinite = true → heights.any (x == ·) = others.any (x == ·)

section Levels

variable (heights : List Float)

theorem any_normalize (x : Float) :
    (normalize heights).any (x == ·) =
      heights.any fun height => height.isFinite && x == height := by
  obtain ⟨-, finite, covers⟩ := levels_normalize heights
  rw [Bool.eq_iff_iff, List.any_eq_true, List.any_eq_true]
  constructor
  · intro known
    obtain ⟨level, member, equal⟩ := known
    exact ⟨level, mem_normalize heights level member,
      Bool.and_eq_true_iff.mpr ⟨finite level member, equal⟩⟩
  · intro known
    obtain ⟨height, member, both⟩ := known
    obtain ⟨height_finite, equal⟩ := Bool.and_eq_true_iff.mp both
    obtain ⟨level, kept, same⟩ := covers height member height_finite
    obtain ⟨x_number, height_number⟩ := numbers_of_beq x height equal
    rw [beq_iff x height x_number height_number] at equal
    have level_number := number_of_isFinite level (finite level kept)
    exact ⟨level, kept, (beq_iff x level x_number level_number).mpr (equal.trans same.symm)⟩

theorem any_finite (x : Float) :
    (heights.any fun height => height.isFinite && x == height) =
      (x.isFinite && heights.any (x == ·)) := by
  have each (height : Float) : (height.isFinite && x == height) = (x.isFinite && x == height) := by
    by_cases equal : (x == height) = true
    · rw [isFinite_of_beq x height equal]
    · simp [equal]
  simp only [each, List.and_any_distrib_left]

/-- Neither the order of the entries counts nor how often they occur, nor what is not finite. -/
theorem sameEntries_of_mem_iff (others : List Float)
    (same : ∀ x : Float, x.isFinite = true → (x ∈ heights ↔ x ∈ others)) :
    SameEntries heights others := by
  intro x finite
  rw [Bool.eq_iff_iff, List.any_eq_true, List.any_eq_true]
  apply exists_congr
  intro height
  apply and_congr_left
  intro equal
  exact same height ((isFinite_of_beq x height equal).symm.trans finite)

theorem ordinals_subset (others : List Float) (same : SameEntries heights others) :
    ∀ place ∈ (normalize heights).map ordinal, place ∈ (normalize others).map ordinal := by
  intro place member
  obtain ⟨level, kept, rfl⟩ := List.mem_map.mp member
  have finite := (levels_normalize heights).finite level kept
  have number := number_of_isFinite level finite
  have known : (normalize heights).any (level == ·) = true :=
    List.any_eq_true.mpr ⟨level, kept, (beq_iff level level number number).mpr rfl⟩
  rw [any_normalize, any_finite, same level finite, ← any_finite, ← any_normalize] at known
  obtain ⟨other, other_kept, equal⟩ := List.any_eq_true.mp known
  obtain ⟨-, other_number⟩ := numbers_of_beq level other equal
  rw [(beq_iff level other number other_number).mp equal]
  exact List.mem_map_of_mem other_kept

theorem same_normalize (others : List Float) (same : SameEntries heights others) :
    List.Forall₂ (fun a b => (a == b) = true) (normalize heights) (normalize others) := by
  have levels := levels_normalize heights
  have other_levels := levels_normalize others
  -- Strictly rising lists with the same members are equal.
  have ordinals : (normalize heights).map ordinal = (normalize others).map ordinal := by
    apply List.Pairwise.eq_of_mem_iff (List.pairwise_map.mpr levels.rising)
      (List.pairwise_map.mpr other_levels.rising)
    intro place
    constructor
    · exact ordinals_subset heights others same place
    · exact ordinals_subset others heights (fun x finite => (same x finite).symm) place
  have lengths := congrArg List.length ordinals
  rw [List.length_map, List.length_map] at lengths
  rw [List.forall₂_iff_get]
  refine ⟨lengths, ?_⟩
  intro index left right
  have number := number_of_isFinite _ (levels.finite _ (List.get_mem _ ⟨index, left⟩))
  have other_number := number_of_isFinite _ (other_levels.finite _ (List.get_mem _ ⟨index, right⟩))
  rw [beq_iff _ _ number other_number]
  have entries := congrArg (·[index]?) ordinals
  simpa [left, right] using entries

end Levels

end Cartograph.Bands

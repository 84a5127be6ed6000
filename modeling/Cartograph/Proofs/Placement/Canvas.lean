import Cartograph.Placement.Grid
import Cartograph.Proofs.Number.Special
import Cartograph.Proofs.Number.Whole
import Cartograph.Raster.Basic
import Cartograph.Scene.Loading

/-! Which positions of a canvas have a cell. The sides of a grid are cut to whole numbers, so a
fresh grid has a free cell for every position up to the last whole column and row, and for none in
the strip that a fraction leaves; the raster surface rounds the same sides up. -/

namespace Cartograph

structure Point.IsOn (p size : Point Float) : Prop where
  left : 0 ≤ p.x
  right : p.x < size.x
  top : 0 ≤ p.y
  bottom : p.y < size.y

namespace Grid

open Number

/-- The first length that takes more than 63 bits. -/
def lengthLimit : Float := 9223372036854775808

def cellCount (grid : Grid) : Nat := grid.width * grid.height

theorem value_lengthLimit : value lengthLimit = 2 ^ 63 := by
  rw [value_of_unpack lengthLimit .positive (2 ^ 52) 11 (by decide) rfl]
  norm_num [Float.Model.UnpackedFloat.Sign.apply]

section Side

variable (x length : Float) (nonneg : 0 ≤ x) (less : x < length)

include nonneg less

theorem finite_of_inside : x.isFinite = true := by
  obtain ⟨number, length_number⟩ := numbers_of_lt x length less
  have most := (ordinal_range length length_number).2
  have zero : ordinal 0 = 0 := rfl
  rw [le_iff 0 x rfl number] at nonneg
  rw [lt_iff x length number length_number] at less
  rw [isFinite_iff x number]
  omega

theorem positivePart_of_inside : positivePart length = length := by
  obtain ⟨number, length_number⟩ := numbers_of_lt x length less
  rw [le_iff 0 x rfl number] at nonneg
  rw [lt_iff x length number length_number] at less
  exact if_pos ((lt_iff 0 length rfl length_number).mpr (nonneg.trans_lt less))

theorem side_of_infinite (infinite : ofDouble length = .infinite false) : side length = 0 := by
  have count : toCount length = 2 ^ 64 - 1 := by
    rw [toCount, infinite]
    rfl
  rw [side, positivePart_of_inside x length nonneg less, count]
  rfl

theorem side_of_finite (finite : length.isFinite = true) :
    (side length : ℤ) = if value length < 2 ^ 63 then cut (value length) else 0 := by
  have x_finite := finite_of_inside x length nonneg less
  have positive : 0 < value length := by
    rw [le_iff_value 0 x rfl x_finite, value_zero] at nonneg
    rw [lt_iff_value x length x_finite finite] at less
    exact nonneg.trans_lt less
  have counted := toCount_eq length finite
  have whole := le_cut (value length) 0 (by exact_mod_cast positive.le)
  rw [side, positivePart_of_inside x length nonneg less]
  by_cases small : value length < 2 ^ 63
  · have below : cut (value length) < 2 ^ 63 := by
      rw [cut_of_nonneg _ positive.le, Int.floor_lt]
      exact_mod_cast small
    rw [if_pos small, if_pos (by change toCount length < 2 ^ 63; omega)]
    omega
  · have above : 2 ^ 63 ≤ cut (value length) := le_cut _ _ (by exact_mod_cast not_lt.mp small)
    rw [if_neg small, if_neg (by change ¬ toCount length < 2 ^ 63; omega)]
    rfl

/-- Coordinates and sides are cut alike, so the last column that counts is the last whole one. -/
theorem toCell_inside_iff :
    (0 ≤ toCell x ∧ toCell x < side length) ↔ x < truncate length ∧ length < lengthLimit := by
  have x_finite := finite_of_inside x length nonneg less
  have x_nonneg := (le_iff_value 0 x rfl x_finite).mp nonneg
  rw [value_zero] at x_nonneg
  have cell_eq := toCell_eq x x_finite
  have cell_nonneg := le_cut (value x) 0 (by exact_mod_cast x_nonneg)
  cases finite : length.isFinite with
  | false =>
    have infinite := infinite_of_lt x length less finite
    have unbounded : ¬ length < lengthLimit := by
      have most := (ordinal_range lengthLimit rfl).2
      have last : ordinal length = 2047 * 2 ^ 52 := by
        rw [ordinal, infinite]
        rfl
      rw [lt_iff length _ (numbers_of_lt x length less).2 rfl, last]
      exact not_lt.mpr most
    rw [side_of_infinite x length nonneg less infinite]
    exact iff_of_false (fun inside => by omega) fun both => unbounded both.2
  | true =>
    have order := (lt_iff_value x length x_finite finite).mp less
    obtain ⟨whole_finite, whole⟩ := value_truncate length finite
    rw [side_of_finite x length nonneg less finite, lt_iff_value x _ x_finite whole_finite, whole,
      lt_iff_value length _ finite rfl, value_lengthLimit, cut_of_nonneg _ x_nonneg] at *
    by_cases small : value length < 2 ^ 63
    · have below : ⌊value x⌋ < 2 ^ 63 := by
        rw [Int.floor_lt]
        exact_mod_cast order.trans small
      rw [if_pos small, and_iff_left small, ← Int.floor_lt]
      omega
    · rw [if_neg small]
      exact iff_of_false (fun inside => by omega) fun both => small both.2

end Side

theorem free_iff (p size : Point Float) (overlap : Nat) (on : p.IsOn size) :
    (ofSize size.x size.y overlap).isTaken p.cell = false ↔
      (p.x < truncate size.x ∧ size.x < lengthLimit) ∧
        p.y < truncate size.y ∧ size.y < lengthLimit := by
  have fresh : (ofSize size.x size.y overlap).isTaken p.cell =
      !(ofSize size.x size.y overlap).inside p.cell := Bool.or_false _
  rw [← toCell_inside_iff p.x size.x on.left on.right,
    ← toCell_inside_iff p.y size.y on.top on.bottom, fresh, Bool.not_eq_false', inside]
  simp only [Bool.and_eq_true, decide_eq_true_eq, and_assoc]
  rfl

theorem side_lt_of_valid (length : Float) (valid : Raster.isValidSide length = true) :
    side length < 2 ^ 32 := by
  simp only [Raster.isValidSide, Bool.and_eq_true, decide_eq_true_eq] at valid
  obtain ⟨⟨finite, least⟩, most⟩ := valid
  have largest : value Raster.largestSide = 4294967295 := by
    rw [value_of_unpack Raster.largestSide .positive (4294967295 * 2 ^ 21) (-21) (by decide) rfl]
    norm_num [Float.Model.UnpackedFloat.Sign.apply]
  rw [le_iff_value 1 length rfl finite, value_one] at least
  rw [le_iff_value length _ finite rfl, largest] at most
  have above_zero : 0 < length := by
    rw [lt_iff_value 0 length rfl finite, value_zero]
    linarith
  have whole : cut (value length) < 2 ^ 32 := by
    rw [cut_of_nonneg _ (by linarith), Int.floor_lt]
    push_cast
    linarith
  have side_eq := side_of_finite 0 length (by decide +kernel) above_zero finite
  rw [if_pos (by linarith)] at side_eq
  omega

theorem cellCount_lt (size : Point Float) (overlap : Nat) (font : Option Font) (raster : Raster)
    (created : Raster.create size.x size.y font = .ok raster) :
    (ofSize size.x size.y overlap).cellCount < 2 ^ 64 := by
  unfold Raster.create at created
  split at created
  · next valid =>
    obtain ⟨width, height⟩ := Bool.and_eq_true_iff.mp valid
    calc side size.x * side size.y < 2 ^ 32 * 2 ^ 32 :=
          Nat.mul_lt_mul'' (side_lt_of_valid _ width) (side_lt_of_valid _ height)
      _ = 2 ^ 64 := by decide
  · cases created

end Grid

/-- A fresh grid is free at just those positions of the canvas that lie before its last whole
column and row, and it can be set aside wherever the canvas can be painted. -/
theorem fresh_grid_covers (scene : Scene) (overlap : Nat) :
    (∀ p : Point Float, p.IsOn scene.size →
      ((Grid.ofSize scene.size.x scene.size.y overlap).isTaken p.cell = false ↔
        (p.x < Number.truncate scene.size.x ∧ scene.size.x < Grid.lengthLimit) ∧
          p.y < Number.truncate scene.size.y ∧ scene.size.y < Grid.lengthLimit)) ∧
      ∀ font raster, Raster.create scene.size.x scene.size.y font = .ok raster →
        (Grid.ofSize scene.size.x scene.size.y overlap).cellCount < 2 ^ 64 :=
  ⟨fun p on => Grid.free_iff p scene.size overlap on,
    fun font raster created => Grid.cellCount_lt scene.size overlap font raster created⟩

def plain (side : Float) : Source.Scene where
  bounds := ⟨⟨0, 0⟩, ⟨side, side⟩⟩
  scale := 1

def plainScene (side : Float) : Scene where
  size := (⟨(plain side).bounds, 1⟩ : Projection).size
  scale := 1
  figures := []
  buildings := []
  roads := []
  trees := []
  craters := []
  directions := []
  points := []

theorem ofSource_plain (side : Float) (positive : Scene.hasSize (plain side).bounds = true) :
    Scene.ofSource {} (plain side) = .ok (plainScene side) := by
  have scaled : ((1 : Float).isFinite && 0 < (1 : Float)) = true := by decide +kernel
  have same : (plain side).scale = 1 := rfl
  rw [Scene.ofSource, positive, same, scaled]
  rfl

theorem plain_covered :
    Scene.ofSource {} (plain 40) = .ok (plainScene 40) ∧
      (⟨39.5, 20⟩ : Point Float).IsOn (plainScene 40).size ∧
      (Grid.ofSize (plainScene 40).size.x (plainScene 40).size.y 12).isTaken
        (⟨39.5, 20⟩ : Point Float).cell = false ∧
      (∃ raster, Raster.create (plainScene 40).size.x (plainScene 40).size.y none = .ok raster) ∧
      (Grid.ofSize (plainScene 40).size.x (plainScene 40).size.y 12).cellCount < 2 ^ 64 := by
  obtain ⟨free, few⟩ := fresh_grid_covers (plainScene 40) 12
  have created : ∃ raster,
      Raster.create (plainScene 40).size.x (plainScene 40).size.y none = .ok raster := by
    unfold Raster.create Raster.allocate
    rw [if_pos (by decide +kernel)]
    simp only
    rw [if_pos (by decide +kernel)]
    exact ⟨_, rfl⟩
  obtain ⟨raster, painted⟩ := created
  have on : (⟨39.5, 20⟩ : Point Float).IsOn (plainScene 40).size := by
    constructor <;> decide +kernel
  refine ⟨ofSource_plain 40 (by decide +kernel), on, ?_, ⟨raster, painted⟩, few none _ painted⟩
  rw [free _ on]
  decide +kernel

/-- The strip behind the last whole column has no cells, and the cells of a large map cannot be
counted in 64 bits. -/
theorem fractional_and_large_uncovered :
    (Scene.ofSource {} (plain 10.5) = .ok (plainScene 10.5) ∧
      (⟨10.2, 5⟩ : Point Float).IsOn (plainScene 10.5).size ∧
      (Grid.ofSize (plainScene 10.5).size.x (plainScene 10.5).size.y 12).isTaken
        (⟨10.2, 5⟩ : Point Float).cell = true) ∧
    Scene.ofSource {} (plain 5e9) = .ok (plainScene 5e9) ∧
      2 ^ 64 ≤ (Grid.ofSize (plainScene 5e9).size.x (plainScene 5e9).size.y 12).cellCount := by
  have on : (⟨10.2, 5⟩ : Point Float).IsOn (plainScene 10.5).size := by
    constructor <;> decide +kernel
  exact ⟨⟨ofSource_plain _ (by decide +kernel), on, by decide +kernel⟩,
    ofSource_plain _ (by decide +kernel), by decide +kernel⟩

end Cartograph

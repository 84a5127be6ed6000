import Cartograph.Proofs.Number.Difference

/-! Comparisons of finite doubles compare what they stand for, since counting doubles keeps their
order. -/

namespace Cartograph.Number

open Float.Model Float.Model.UnpackedFloat

section Sizes

variable (first second : Nat) (place other : Int)
  (left : first < 2 ^ 53 ∧ -1074 ≤ place ∧ (first < 2 ^ 52 → place = -1074))
  (right : second < 2 ^ 53 ∧ -1074 ≤ other ∧ (second < 2 ^ 52 → other = -1074))

include left right

theorem size_lt_of_rung
    (less : (place + 1074) * 2 ^ 52 + first < (other + 1074) * 2 ^ 52 + second) :
    (first : ℚ) * 2 ^ place < second * 2 ^ other := by
  obtain ⟨small, low, full⟩ := left
  obtain ⟨small', low', full'⟩ := right
  rcases lt_trichotomy place other with finer | rfl | coarser
  · have wide : 2 ^ 52 ≤ second := by omega
    calc (first : ℚ) * 2 ^ place < 2 ^ 53 * 2 ^ place := by
          apply mul_lt_mul_of_pos_right _ (by positivity)
          exact_mod_cast small
      _ = 2 ^ 52 * 2 ^ (place + 1) := by
        rw [zpow_add₀ two_ne_zero]
        ring
      _ ≤ second * 2 ^ other := by
        gcongr
        · exact_mod_cast wide
        · exact one_le_two
        · exact finer
  · have fewer : first < second := by omega
    apply mul_lt_mul_of_pos_right _ (by positivity)
    exact_mod_cast fewer
  · omega

end Sizes

theorem rational_lt_of_rung (x y : UnpackedFloat) (left : Settled x) (right : Settled y)
    (less : rung x < rung y) : rational x < rational y := by
  cases x with
  | notANumber | infinity => exact left.elim
  | zero side =>
    cases y with
    | notANumber | infinity => exact right.elim
    | zero other => exact absurd less (lt_irrefl 0)
    | finite other mantissa exponent positive =>
      have low := right.2.1
      have size_pos : (0 : ℚ) < mantissa * 2 ^ exponent := by positivity
      cases other with
      | positive => simpa [rational, Sign.apply] using size_pos
      | negative =>
        change 0 < -((exponent + 1074) * 2 ^ 52 + (mantissa : Int)) at less
        omega
  | finite side mantissa exponent positive =>
    have low := left.2.1
    have size_pos : (0 : ℚ) < mantissa * 2 ^ exponent := by positivity
    cases y with
    | notANumber | infinity => exact right.elim
    | zero other =>
      cases side with
      | positive =>
        change (exponent + 1074) * 2 ^ 52 + (mantissa : Int) < 0 at less
        omega
      | negative => simpa [rational, Sign.apply] using size_pos
    | finite other mantissa' exponent' positive' =>
      have low' := right.2.1
      have size_pos' : (0 : ℚ) < mantissa' * 2 ^ exponent' := by positivity
      cases side with
      | positive =>
        cases other with
        | positive => exact size_lt_of_rung _ _ _ _ left right less
        | negative =>
          change (exponent + 1074) * 2 ^ 52 + (mantissa : Int) <
            -((exponent' + 1074) * 2 ^ 52 + (mantissa' : Int)) at less
          omega
      | negative =>
        cases other with
        | positive =>
          simp only [rational, Sign.apply]
          push_cast
          linarith
        | negative =>
          have more := size_lt_of_rung _ _ _ _ right left (neg_lt_neg_iff.mp less)
          simp only [rational, Sign.apply]
          push_cast
          linarith

section Doubles

variable (x y : Float) (left : x.isFinite = true) (right : y.isFinite = true)

include left right

theorem value_lt_of_ordinal (less : ordinal x < ordinal y) : value x < value y := by
  rw [ordinal, ordinal, ← unpack_eq_ofDouble, ← unpack_eq_ofDouble] at less
  exact rational_lt_of_rung _ _ (settled_of_isFinite x left) (settled_of_isFinite y right) less

theorem value_eq_of_ordinal (same : ordinal x = ordinal y) : value x = value y := by
  have x_number := number_of_isFinite x left
  have y_number := number_of_isFinite y right
  by_cases none : ordinal x = 0
  · obtain ⟨side, first⟩ := unpack_of_ordinal x x_number none
    obtain ⟨other, second⟩ := unpack_of_ordinal y y_number (same ▸ none)
    rw [value, value, first, second]
    rfl
  · rw [eq_of_ordinal x y x_number y_number same none]

theorem lt_iff_value : x < y ↔ value x < value y := by
  rw [lt_iff x y (number_of_isFinite x left) (number_of_isFinite y right)]
  constructor
  · exact value_lt_of_ordinal x y left right
  · intro less
    rcases lt_trichotomy (ordinal x) (ordinal y) with before | same | after
    · exact before
    · exact absurd (value_eq_of_ordinal x y left right same) less.ne
    · exact absurd (value_lt_of_ordinal y x right left after) less.asymm

theorem le_iff_value : x ≤ y ↔ value x ≤ value y := by
  have x_number := number_of_isFinite x left
  have y_number := number_of_isFinite y right
  rw [le_iff x y x_number y_number, ← not_lt, ← not_lt, ← lt_iff y x y_number x_number,
    lt_iff_value y x right left]

end Doubles

theorem finite_of_between (low x high : Float) (low_finite : low.isFinite = true)
    (high_finite : high.isFinite = true) (number : x.isNaN = false)
    (above : ordinal low ≤ ordinal x) (below : ordinal x ≤ ordinal high) :
    x.isFinite = true ∧ value low ≤ value x ∧ value x ≤ value high := by
  have low_number := number_of_isFinite low low_finite
  have high_number := number_of_isFinite high high_finite
  have finite : x.isFinite = true := by
    have first := ((isFinite_iff low low_number).mp low_finite).1
    have last := ((isFinite_iff high high_number).mp high_finite).2
    rw [isFinite_iff x number]
    omega
  rw [← le_iff low x low_number number, le_iff_value low x low_finite finite] at above
  rw [← le_iff x high number high_number, le_iff_value x high finite high_finite] at below
  exact ⟨finite, above, below⟩

end Cartograph.Number

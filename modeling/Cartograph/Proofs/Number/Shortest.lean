import Mathlib
import Cartograph.Proofs.Number.Nearest

/-! The decimal that is written for a double. It lies in the interval around the double, because
the search goes down to a place that is finer than a quarter of the last binary place. -/

namespace Cartograph.Number

def Decimal.value (decimal : Decimal) : ℚ := decimal.digits * 10 ^ decimal.exponent

theorem tenTo_eq (exponent : Nat) : tenTo exponent = 10 ^ exponent := rfl

theorem twoTo_eq (exponent : Nat) : twoTo exponent = 2 ^ exponent := rfl

namespace Interval

theorem scale_one (interval : Interval) : interval.scale 1 = interval := by
  simp only [scale, Nat.mul_one]

theorem contains_of_nearest (interval : Interval) (tie : Tie) (unit count : Nat)
    (found : interval.nearest? tie unit = some count) :
    interval.contains (count * unit) = true := by
  unfold nearest? at found
  cases below : interval.contains (interval.value / unit * unit) with
  | false =>
    cases above : interval.contains ((interval.value / unit + 1) * unit) with
    | false => simp [below, above] at found
    | true =>
      simp only [below, above, Option.some.injEq] at found
      rw [← found, above]
  | true =>
    cases above : interval.contains ((interval.value / unit + 1) * unit) with
    | false =>
      simp only [below, above, Option.some.injEq] at found
      rw [← found, below]
    | true =>
      have either : count = interval.value / unit ∨ count = interval.value / unit + 1 := by
        simp only [below, above] at found
        grind
      rcases either with rfl | rfl
      · exact below
      · exact above

theorem holds_of_nearestAt (interval : Interval) (tie : Tie) (denominator count : Nat)
    (place : Int) (positive : 0 < denominator)
    (found : interval.nearestAt? tie denominator place = some count) :
    interval.Holds (1 / denominator) (count * 10 ^ place) := by
  have denominator_pos : (0 : ℚ) < denominator := by exact_mod_cast positive
  unfold nearestAt? at found
  split at found
  · next whole =>
    obtain ⟨places, rfl⟩ := Int.eq_ofNat_of_zero_le whole
    have inside := contains_of_nearest _ _ _ _ found
    rw [← scale_one interval] at inside
    rw [holds_iff _ _ _ _ 1 (by positivity) Nat.one_pos]
    · exact inside
    · rw [zpow_natCast, tenTo_eq, Int.toNat_natCast]
      push_cast
      field_simp
  · next fraction =>
    obtain ⟨places, rfl⟩ : ∃ places : Nat, place = -(places : Int) :=
      ⟨(-place).toNat, by omega⟩
    rw [neg_neg, Int.toNat_natCast, tenTo_eq] at found
    rw [holds_iff _ _ _ (count * denominator) (10 ^ places) (by positivity) (by positivity)]
    · exact contains_of_nearest _ _ _ _ found
    · rw [zpow_neg, zpow_natCast]
      push_cast
      field_simp

theorem nearest_isSome (interval : Interval) (tie : Tie) (unit : Nat) (positive : 0 < unit)
    (room : interval.low + unit ≤ interval.value) (inside : interval.value < interval.high) :
    (interval.nearest? tie unit).isSome = true := by
  have split := Nat.div_add_mod' interval.value unit
  have rest := Nat.mod_lt interval.value positive
  have below : interval.contains (interval.value / unit * unit) = true := by
    unfold contains
    split
    · rw [Bool.and_eq_true, decide_eq_true_eq, decide_eq_true_eq]
      omega
    · rw [Bool.and_eq_true, decide_eq_true_eq, decide_eq_true_eq]
      omega
  unfold nearest?
  cases above : interval.contains ((interval.value / unit + 1) * unit) with
  | false => simp [below, above]
  | true =>
    simp only [below, above]
    grind

theorem nearestAt_isSome (interval : Interval) (tie : Tie) (denominator step : Nat) (place : Int)
    (positive : 0 < denominator) (room : interval.low + step ≤ interval.value)
    (inside : interval.value < interval.high)
    (fine : (denominator : ℚ) * 10 ^ place ≤ step) :
    (interval.nearestAt? tie denominator place).isSome = true := by
  unfold nearestAt?
  split
  · next whole =>
    obtain ⟨places, rfl⟩ := Int.eq_ofNat_of_zero_le whole
    rw [zpow_natCast] at fine
    have unit_le : denominator * 10 ^ places ≤ step := by exact_mod_cast fine
    rw [tenTo_eq, Int.toNat_natCast]
    exact nearest_isSome _ _ _ (by positivity) (by omega) inside
  · next fraction =>
    obtain ⟨places, rfl⟩ : ∃ places : Nat, place = -(places : Int) :=
      ⟨(-place).toNat, by omega⟩
    rw [zpow_neg, zpow_natCast, ← div_eq_mul_inv, div_le_iff₀ (by positivity)] at fine
    have unit_le : denominator ≤ step * 10 ^ places := by exact_mod_cast fine
    rw [neg_neg, Int.toNat_natCast, tenTo_eq]
    apply nearest_isSome _ _ _ positive
    · calc interval.low * 10 ^ places + denominator
        _ ≤ interval.low * 10 ^ places + step * 10 ^ places := Nat.add_le_add_left unit_le _
        _ = (interval.low + step) * 10 ^ places := by rw [Nat.add_mul]
        _ ≤ interval.value * 10 ^ places := Nat.mul_le_mul_right _ room
    · exact Nat.mul_lt_mul_of_pos_right inside (by positivity)

theorem coarsest_holds (interval : Interval) (tie : Tie) (denominator steps : Nat) (place : Int)
    (positive : 0 < denominator)
    (finest : (interval.nearestAt? tie denominator (place - steps)).isSome = true) :
    interval.Holds (1 / denominator)
      (interval.coarsest tie denominator steps place).value := by
  induction steps generalizing place with
  | zero =>
    rw [Nat.cast_zero, Int.sub_zero] at finest
    obtain ⟨count, found⟩ := Option.isSome_iff_exists.mp finest
    rw [coarsest, found]
    exact holds_of_nearestAt interval tie denominator count place positive found
  | succ steps coarser =>
    unfold coarsest
    split
    · next count found =>
      exact holds_of_nearestAt interval tie denominator count place positive found
    · apply coarser
      rwa [Int.sub_sub, Int.add_comm, ← Nat.cast_succ]

theorem holds_scale (interval : Interval) (factor : Nat) (place value : ℚ) :
    (interval.scale factor).Holds place value ↔ interval.Holds (factor * place) value := by
  simp only [Holds, scale, Nat.cast_mul, mul_assoc]

theorem around_room (mantissa : Nat) (exponent : Int) (positive : 0 < mantissa) :
    (around .double mantissa exponent).low + 1 ≤ (around .double mantissa exponent).value := by
  change (if mantissa = 2 ^ 52 ∧ -1074 < exponent then 4 * mantissa - 1 else 4 * mantissa - 2) + 1 ≤
    4 * mantissa
  split <;> omega

theorem around_inside (mantissa : Nat) (exponent : Int) :
    (around .double mantissa exponent).value < (around .double mantissa exponent).high :=
  show 4 * mantissa < 4 * mantissa + 2 by omega

end Interval

/-- A power of ten lies below a power of two when the cube of ten does, which is less than the
tenth power of two, or the 28th power, which is more than the 93rd. -/
theorem ten_zpow_le (place quarter : Int) (whole : 0 ≤ place → 10 * place ≤ 3 * quarter)
    (fraction : place < 0 → 93 * place ≤ 28 * quarter) : (10 : ℚ) ^ place ≤ 2 ^ quarter := by
  rcases lt_or_ge place 0 with negative | nonnegative
  · have bound := fraction negative
    obtain ⟨places, rfl⟩ : ∃ places : Nat, place = -(places : Int) :=
      ⟨(-place).toNat, by omega⟩
    rw [← pow_le_pow_iff_left₀ (by positivity) (by positivity) (show 28 ≠ 0 by decide)]
    calc ((10 : ℚ) ^ (-(places : Int))) ^ 28 = ((10 ^ 28) ^ places)⁻¹ := by
          rw [zpow_neg, zpow_natCast, inv_pow, pow_right_comm]
      _ ≤ ((2 ^ 93) ^ places)⁻¹ :=
          inv_anti₀ (by positivity) (pow_le_pow_left₀ (by positivity) (by norm_num) _)
      _ = 2 ^ (93 * -(places : Int)) := by
          rw [← pow_mul, Int.mul_neg, zpow_neg, ← zpow_natCast, Nat.cast_mul]
          rfl
      _ ≤ 2 ^ (quarter * (28 : Nat)) :=
          zpow_le_zpow_right₀ (by norm_num) (by omega)
      _ = (2 ^ quarter) ^ 28 := by rw [zpow_mul, zpow_natCast]
  · have bound := whole nonnegative
    obtain ⟨places, rfl⟩ := Int.eq_ofNat_of_zero_le nonnegative
    rw [← pow_le_pow_iff_left₀ (by positivity) (by positivity) (show 3 ≠ 0 by decide)]
    calc ((10 : ℚ) ^ (places : Int)) ^ 3 = (10 ^ 3) ^ places := by
          rw [zpow_natCast, pow_right_comm]
      _ ≤ (2 ^ 10) ^ places := pow_le_pow_left₀ (by positivity) (by norm_num) _
      _ = 2 ^ (10 * (places : Int)) := by
          rw [← pow_mul, ← zpow_natCast, Nat.cast_mul]
          rfl
      _ ≤ 2 ^ (quarter * (3 : Nat)) := zpow_le_zpow_right₀ (by norm_num) (by omega)
      _ = (2 ^ quarter) ^ 3 := by rw [zpow_mul, zpow_natCast]

theorem finest_le (mantissa : Nat) (exponent : Int) (positive : 0 < mantissa)
    (storable : Storable mantissa exponent) :
    (10 : ℚ) ^ (decimalPlaceAbove (mantissa.log2 + 1 + exponent) - (24 : Nat)) ≤
      2 ^ (exponent - 2) := by
  have bits : mantissa.log2 < 53 := (Nat.log2_lt positive.ne').mpr storable.small
  have low := storable.low
  have high := storable.high
  unfold decimalPlaceAbove
  exact ten_zpow_le _ _ (by omega) (by omega)

theorem shortest_roundsTo (tie : Tie) (mantissa : Nat) (exponent : Int) (positive : 0 < mantissa)
    (storable : Storable mantissa exponent) :
    RoundsTo (shortest .double tie mantissa exponent).value mantissa exponent := by
  have finest := finest_le mantissa exponent positive storable
  have room := Interval.around_room mantissa exponent positive
  have inside := Interval.around_inside mantissa exponent
  rw [shortest, if_neg positive.ne']
  simp only
  generalize decimalPlaceAbove (mantissa.log2 + 1 + exponent) = place at finest ⊢
  split
  · next coarse =>
    obtain ⟨places, quarter⟩ := Int.eq_ofNat_of_zero_le coarse
    rw [quarter, zpow_natCast] at finest
    have some_digits := Interval.nearestAt_isSome
      ((Interval.around .double mantissa exponent).scale (2 ^ places)) tie 1 (2 ^ places)
      (place - (24 : Nat)) Nat.one_pos
      (by
        change _ * 2 ^ places + 2 ^ places ≤ _ * 2 ^ places
        rw [← Nat.succ_mul]
        exact Nat.mul_le_mul_right _ room)
      (Nat.mul_lt_mul_of_pos_right inside (by positivity))
      (by
        push_cast
        rwa [one_mul])
    have holds := Interval.coarsest_holds _ tie 1 24 place Nat.one_pos some_digits
    rw [Interval.holds_scale] at holds
    rw [RoundsTo, quarter, Int.toNat_natCast, twoTo_eq, zpow_natCast]
    simpa using holds
  · next fine =>
    obtain ⟨places, quarter⟩ : ∃ places : Nat, exponent - 2 = -(places : Int) :=
      ⟨(-(exponent - 2)).toNat, by omega⟩
    rw [quarter, zpow_neg, zpow_natCast] at finest
    have some_digits := Interval.nearestAt_isSome (Interval.around .double mantissa exponent) tie
      (2 ^ places) 1 (place - (24 : Nat)) (by positivity) room inside
      (by
        push_cast
        calc (2 : ℚ) ^ places * 10 ^ (place - 24)
          _ ≤ 2 ^ places * (2 ^ places)⁻¹ := mul_le_mul_of_nonneg_left finest (by positivity)
          _ = 1 := by field_simp)
    have holds := Interval.coarsest_holds _ tie _ 24 place (by positivity) some_digits
    rw [RoundsTo, quarter, neg_neg, Int.toNat_natCast, twoTo_eq, zpow_neg, zpow_natCast]
    simpa using holds

end Cartograph.Number

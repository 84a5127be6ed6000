import Mathlib
import Cartograph.Number.Shortest
import Cartograph.Proofs.Number.Pattern

/-! Rounding to the nearest double. The arithmetic of the language shifts a mantissa and keeps
two residual bits; that computes the nearest whole number of a fraction, so a real in the
interval around a double is rounded to that double. -/

namespace Cartograph.Number

open Float.Model Float.Model.UnpackedFloat

def nearestWhole (count unit : Nat) : Nat :=
  if 2 * (count % unit) < unit then count / unit
  else if unit < 2 * (count % unit) then count / unit + 1
  else count / unit + count / unit % 2

theorem nearestWhole_eq (count unit whole : Nat) (positive : 0 < unit)
    (above : 2 * (whole * unit) ≤ 2 * count + unit) (below : 2 * count ≤ 2 * (whole * unit) + unit)
    (odd : whole % 2 = 1 →
      2 * (whole * unit) < 2 * count + unit ∧ 2 * count < 2 * (whole * unit) + unit) :
    nearestWhole count unit = whole := by
  have split := Nat.div_add_mod' count unit
  have rest := Nat.mod_lt count positive
  have next : (count / unit + 2) * unit = count / unit * unit + 2 * unit := by ring
  have above_floor : whole < count / unit + 2 :=
    Nat.lt_of_mul_lt_mul_right (a := unit) (by omega)
  have below_next : (count / unit) < whole + 1 := by
    apply Nat.lt_of_mul_lt_mul_right (a := unit)
    rw [Nat.succ_mul]
    omega
  unfold nearestWhole
  rcases Nat.lt_or_ge (count / unit) whole with later | same
  · have whole_eq : whole = count / unit + 1 := by omega
    have product : whole * unit = count / unit * unit + unit := by rw [whole_eq, Nat.succ_mul]
    split
    · omega
    · split <;> omega
  · have whole_eq : count / unit = whole := by omega
    rw [whole_eq] at split ⊢
    split
    · rfl
    · split <;> omega

def extended (count unit : Nat) : ExtendedMantissa :=
  ⟨count / unit, decide (unit ≤ 2 * (count % unit)),
    decide (count % unit ≠ 0 ∧ 2 * (count % unit) ≠ unit)⟩

theorem ofMantissaAndAccuracy_eq (count unit : Nat) (positive : 0 < unit) :
    .ofMantissaAndAccuracy (count / unit) (accuracyOfFraction (count % unit) unit) =
      extended count unit := by
  have rest := Nat.mod_lt count positive
  unfold accuracyOfFraction extended
  split
  · simp only [ExtendedMantissa.ofMantissaAndAccuracy, ExtendedMantissa.mk.injEq, true_and]
    constructor <;> simp <;> omega
  · rcases Nat.lt_trichotomy (2 * (count % unit)) unit with less | tie | more
    · rw [Nat.compare_eq_lt.mpr less]
      simp only [ExtendedMantissa.ofMantissaAndAccuracy, ExtendedMantissa.mk.injEq, true_and]
      constructor <;> simp <;> omega
    · rw [Nat.compare_eq_eq.mpr tie]
      simp only [ExtendedMantissa.ofMantissaAndAccuracy, ExtendedMantissa.mk.injEq, true_and]
      constructor <;> simp <;> omega
    · rw [Nat.compare_eq_gt.mpr more]
      simp only [ExtendedMantissa.ofMantissaAndAccuracy, ExtendedMantissa.mk.injEq, true_and]
      constructor <;> simp <;> omega

theorem roundedMantissa_extended (count unit : Nat) (positive : 0 < unit) :
    (extended count unit).roundedMantissa = nearestWhole count unit := by
  unfold extended nearestWhole ExtendedMantissa.roundedMantissa
  by_cases less : 2 * (count % unit) < unit
  · rw [if_pos less, decide_eq_false (by omega)]
    by_cases exact : count % unit = 0
    · simp [exact, ExtendedMantissa.accuracy, Accuracy.roundToNearestEven]
    · rw [decide_eq_true (by omega)]
      rfl
  · rw [if_neg less, decide_eq_true (by omega)]
    by_cases tie : 2 * (count % unit) = unit
    · rw [decide_eq_false (by omega), if_neg (by omega)]
      rfl
    · rw [decide_eq_true (by omega), if_pos (by omega)]
      rfl

theorem shiftRightOne_extended (count unit : Nat) (positive : 0 < unit) :
    (extended count unit).shiftRightOne = extended count (unit * 2) := by
  have rest := Nat.mod_lt count positive
  have deeper : count % (unit * 2) = count % unit + unit * (count / unit % 2) := Nat.mod_mul
  simp only [extended, ExtendedMantissa.shiftRightOne, ExtendedMantissa.mk.injEq, deeper,
    Nat.div_div_eq_div_mul, true_and]
  rcases Nat.mod_two_eq_zero_or_one (count / unit) with even | odd
  · rw [even, Nat.mul_zero, Nat.add_zero]
    constructor
    · simp
      omega
    · rw [← Bool.decide_or, decide_eq_decide]
      omega
  · rw [odd, Nat.mul_one]
    constructor
    · simp
      omega
    · rw [← Bool.decide_or, decide_eq_decide]
      omega

theorem shiftRight_extended (count unit amount : Nat) (positive : 0 < unit) :
    extended count unit >>> amount = extended count (unit * 2 ^ amount) := by
  induction amount with
  | zero => rw [Nat.pow_zero, Nat.mul_one]; rfl
  | succ amount shifted =>
    change (extended count unit >>> amount).shiftRightOne = _
    rw [shifted, shiftRightOne_extended _ _ (by positivity), Nat.pow_succ, Nat.mul_assoc]

theorem shiftToTargetExponent_eq (count unit steps : Nat) (exponent : Int) (positive : 0 < unit)
    (target : Format.binary64.targetExponent (totalExponent (count / unit) exponent) =
      exponent + steps) :
    shiftToTargetExponent .binary64 (count / unit) exponent
        (accuracyOfFraction (count % unit) unit) =
      (extended count (unit * 2 ^ steps), exponent + steps) := by
  have amount : (exponent + (steps : Int) - exponent).toNat = steps := by omega
  simp only [shiftToTargetExponent, shiftToExponent, target, amount]
  rw [ofMantissaAndAccuracy_eq count unit positive, shiftRight_extended count unit steps positive]

theorem roundWithAccuracy_eq (side : Sign) (count unit steps rounded carry mantissa : Nat)
    (exponent : Int) (unit_pos : 0 < unit) (mantissa_pos : 0 < mantissa)
    (first : Format.binary64.targetExponent (totalExponent (count / unit) exponent) =
      exponent + steps)
    (nearest : nearestWhole count (unit * 2 ^ steps) = rounded)
    (second : Format.binary64.targetExponent (totalExponent rounded (exponent + steps)) =
      exponent + steps + carry)
    (kept : rounded / 2 ^ carry = mantissa) :
    roundWithAccuracy .binary64 side (count / unit) exponent
        (accuracyOfFraction (count % unit) unit) =
      .finite side mantissa (exponent + steps + carry) mantissa_pos := by
  have settled : shiftToTargetExponent .binary64 rounded (exponent + steps) .exact =
      (extended rounded (2 ^ carry), exponent + steps + carry) := by
    have shifted := shiftToTargetExponent_eq rounded 1 carry (exponent + steps) Nat.one_pos
      (by rwa [Nat.div_one])
    rwa [Nat.div_one, Nat.mod_one, Nat.one_mul] at shifted
  have shifted_pos : 0 < unit * 2 ^ steps := by positivity
  unfold roundWithAccuracy
  rw [shiftToTargetExponent_eq count unit steps exponent unit_pos first]
  simp only [roundedMantissa_extended count _ shifted_pos, nearest, settled]
  simp only [extended, kept]
  rw [dif_neg (by omega)]

theorem ends_of_contains (mantissa unit count : Nat) (exponent : Int) (positive : 0 < mantissa)
    (within : ((Interval.around .double mantissa exponent).scale unit).contains count = true) :
    4 * (mantissa * unit) ≤ count + 2 * unit ∧ count ≤ 4 * (mantissa * unit) + 2 * unit ∧
      (mantissa % 2 = 1 →
        4 * (mantissa * unit) < count + 2 * unit ∧ count < 4 * (mantissa * unit) + 2 * unit) ∧
      (mantissa = 2 ^ 52 → -1074 < exponent → 4 * (mantissa * unit) ≤ count + unit) := by
  have closed_eq : (Interval.around .double mantissa exponent).closed = (mantissa % 2 == 0) := rfl
  have high_eq : (Interval.around .double mantissa exponent).high = 4 * mantissa + 2 := rfl
  have low_eq : (Interval.around .double mantissa exponent).low =
      if mantissa = 2 ^ 52 ∧ -1074 < exponent then 4 * mantissa - 1 else 4 * mantissa - 2 := rfl
  have high_add : (4 * mantissa + 2) * unit = 4 * (mantissa * unit) + 2 * unit := by ring
  have low_add : 4 * (mantissa * unit) ≤
      (Interval.around .double mantissa exponent).low * unit + 2 * unit := by
    rw [← Nat.mul_assoc, ← Nat.add_mul, low_eq]
    apply Nat.mul_le_mul_right
    split <;> omega
  have finer_add : mantissa = 2 ^ 52 → -1074 < exponent → 4 * (mantissa * unit) =
      (Interval.around .double mantissa exponent).low * unit + unit := by
    intro power above
    rw [← Nat.mul_assoc, ← Nat.succ_mul, low_eq, if_pos ⟨power, above⟩]
    congr 1
    omega
  simp only [Interval.contains, Interval.scale, closed_eq, high_eq, high_add] at within
  split at within
  · next even =>
    simp only [beq_iff_eq, Bool.and_eq_true, decide_eq_true_eq] at even within
    exact ⟨by omega, by omega, by omega, fun power above => by have := finer_add power above; omega⟩
  · next odd =>
    simp only [beq_iff_eq, Bool.and_eq_true, decide_eq_true_eq] at odd within
    exact ⟨by omega, by omega, by omega, fun power above => by have := finer_add power above; omega⟩

theorem targetExponent_eq (mantissa : Nat) (exponent : Int) :
    Format.binary64.targetExponent (totalExponent mantissa exponent) =
      max (mantissa.log2 + 1 + exponent - 53) (-1074) := rfl

theorem Storable.targetExponent_eq {mantissa : Nat} {exponent : Int}
    (storable : Storable mantissa exponent) :
    Format.binary64.targetExponent (totalExponent mantissa exponent) = exponent := by
  have low := storable.low
  rw [Number.targetExponent_eq]
  rcases Nat.lt_or_ge mantissa (2 ^ 52) with subnormal | normal
  · have smallest := storable.full subnormal
    have short : mantissa.log2 ≤ 52 := by
      rcases Nat.eq_zero_or_pos mantissa with zero | positive
      · rw [zero]
        decide
      · exact ((Nat.log2_lt positive.ne').mpr subnormal).le
    omega
  · rw [storable.log2_eq normal]
    omega

theorem log2_div_lt (count unit bits steps : Nat) (unit_pos : 0 < unit) (bits_pos : 0 < bits)
    (less : count < 2 ^ bits * (unit * 2 ^ steps)) : (count / unit).log2 < bits + steps := by
  rcases Nat.eq_zero_or_pos (count / unit) with zero | positive
  · rw [zero, Nat.log2_zero]
    omega
  · rw [Nat.log2_lt positive.ne', Nat.div_lt_iff_lt_mul unit_pos, Nat.pow_add]
    calc count < 2 ^ bits * (unit * 2 ^ steps) := less
      _ = 2 ^ bits * 2 ^ steps * unit := by ring

theorem le_log2_div (count unit bits steps : Nat) (unit_pos : 0 < unit)
    (more : 2 ^ bits * (unit * 2 ^ steps) ≤ count) : bits + steps ≤ (count / unit).log2 := by
  have whole : 2 ^ (bits + steps) ≤ count / unit := by
    rw [Nat.le_div_iff_mul_le unit_pos, Nat.pow_add]
    calc 2 ^ bits * 2 ^ steps * unit = 2 ^ bits * (unit * 2 ^ steps) := by ring
      _ ≤ count := more
  have positive := Nat.two_pow_pos (bits + steps)
  exact (Nat.le_log2 (by omega)).mpr whole

section Contained

variable (side : Sign) (count unit steps mantissa : Nat) (exponent : Int) (unit_pos : 0 < unit)
  (mantissa_pos : 0 < mantissa) (storable : Storable mantissa (exponent + steps))
  (fine : exponent ≤ Format.binary64.targetExponent (totalExponent (count / unit) exponent))
  (within : ((Interval.around .double mantissa (exponent + steps)).scale
    (unit * 2 ^ steps)).contains (4 * count) = true)

include unit_pos storable within

include fine in
theorem roundWithAccuracy_carried (power : mantissa = 2 ^ 52) (normal : -1074 < exponent + steps)
    (less : count < 2 ^ 52 * (unit * 2 ^ steps)) :
    roundWithAccuracy .binary64 side (count / unit) exponent
        (accuracyOfFraction (count % unit) unit) =
      .finite side mantissa (exponent + steps) mantissa_pos := by
  obtain ⟨above, below, -, finer_room⟩ := ends_of_contains _ _ _ _ mantissa_pos within
  have carried := finer_room power normal
  subst power
  rw [targetExponent_eq] at fine
  have bits_lt := log2_div_lt count unit 52 steps unit_pos (by decide) less
  have le_bits := le_log2_div count unit 51 steps unit_pos (by omega)
  obtain ⟨finer, rfl⟩ : ∃ finer, steps = finer + 1 := ⟨steps - 1, by omega⟩
  have twice : unit * 2 ^ (finer + 1) = 2 * (unit * 2 ^ finer) := by ring
  rw [twice] at above below carried less
  have rounded : nearestWhole count (unit * 2 ^ finer) = 2 ^ 53 :=
    nearestWhole_eq _ _ _ (by positivity) (by omega) (by omega) (by omega)
  have result := roundWithAccuracy_eq side count unit finer (2 ^ 53) 1 (2 ^ 52) exponent unit_pos
    (by decide) (by rw [targetExponent_eq]; omega) rounded
    (by rw [targetExponent_eq, Nat.log2_two_pow]; omega) (by decide)
  rw [result]
  simp only [UnpackedFloat.finite.injEq, true_and]
  omega

theorem roundWithAccuracy_placed (full : -1074 < exponent + steps →
      2 ^ 52 * (unit * 2 ^ steps) ≤ count) :
    roundWithAccuracy .binary64 side (count / unit) exponent
        (accuracyOfFraction (count % unit) unit) =
      .finite side mantissa (exponent + steps) mantissa_pos := by
  obtain ⟨above, below, odd, -⟩ := ends_of_contains _ _ _ _ mantissa_pos within
  have low := storable.low
  have small := storable.small
  have place_pos : 0 < unit * 2 ^ steps := by positivity
  have below_next : count < 2 ^ 53 * (unit * 2 ^ steps) := by
    rcases Nat.lt_or_ge mantissa (2 ^ 53 - 1) with less | last
    · have := Nat.mul_le_mul_right (unit * 2 ^ steps) (Nat.le_sub_one_of_lt less)
      omega
    · obtain rfl : mantissa = 2 ^ 53 - 1 := by omega
      have := odd (by decide)
      omega
  have bits_lt := log2_div_lt count unit 53 steps unit_pos (by decide) below_next
  have le_bits : -1074 < exponent + steps → 52 + steps ≤ (count / unit).log2 := fun normal =>
    le_log2_div count unit 52 steps unit_pos (full normal)
  have rounded : nearestWhole count (unit * 2 ^ steps) = mantissa :=
    nearestWhole_eq _ _ _ place_pos (by omega) (by omega) (by omega)
  have result := roundWithAccuracy_eq side count unit steps mantissa 0 mantissa exponent unit_pos
    mantissa_pos (by rw [targetExponent_eq]; omega) rounded
    (by rw [storable.targetExponent_eq]; omega) (by rw [Nat.pow_zero, Nat.div_one])
  rw [result]
  simp only [UnpackedFloat.finite.injEq, true_and]
  omega

include fine in
theorem roundWithAccuracy_of_contains :
    roundWithAccuracy .binary64 side (count / unit) exponent
        (accuracyOfFraction (count % unit) unit) =
      .finite side mantissa (exponent + steps) mantissa_pos := by
  by_cases borrow : mantissa = 2 ^ 52 ∧ -1074 < exponent + steps ∧
      count < 2 ^ 52 * (unit * 2 ^ steps)
  · obtain ⟨power, normal, less⟩ := borrow
    exact roundWithAccuracy_carried side count unit steps mantissa exponent unit_pos mantissa_pos
      storable fine within power normal less
  · apply roundWithAccuracy_placed side count unit steps mantissa exponent unit_pos mantissa_pos
      storable within
    intro normal
    have above := (ends_of_contains _ _ _ _ mantissa_pos within).1
    rcases Nat.lt_or_ge (2 ^ 52) mantissa with more | least
    · have := Nat.mul_le_mul_right (unit * 2 ^ steps) (Nat.succ_le_of_lt more)
      omega
    · have not_less : ¬ mantissa < 2 ^ 52 := fun less => by
        have := storable.full less
        omega
      exact Nat.not_lt.mp fun less => borrow ⟨by omega, normal, less⟩

end Contained

def Interval.Holds (interval : Interval) (place value : ℚ) : Prop :=
  if interval.closed then interval.low * place ≤ value ∧ value ≤ interval.high * place
  else interval.low * place < value ∧ value < interval.high * place

theorem Interval.Holds.ends {interval : Interval} {place value : ℚ}
    (holds : interval.Holds place value) :
    interval.low * place ≤ value ∧ value ≤ interval.high * place := by
  unfold Interval.Holds at holds
  split at holds
  · exact holds
  · exact ⟨holds.1.le, holds.2.le⟩

theorem Interval.holds_iff (interval : Interval) (place value : ℚ) (count unit : Nat)
    (place_pos : 0 < place) (positive : 0 < unit) (fraction : value * unit = count * place) :
    interval.Holds place value ↔ (interval.scale unit).contains count = true := by
  have unit_pos : (0 : ℚ) < unit := by exact_mod_cast positive
  have le_iff (bound : Nat) : (bound * place ≤ value ↔ bound * unit ≤ count) := by
    rw [← mul_le_mul_iff_left₀ unit_pos, fraction, mul_right_comm, mul_le_mul_iff_left₀ place_pos]
    norm_cast
  have ge_iff (bound : Nat) : (value ≤ bound * place ↔ count ≤ bound * unit) := by
    rw [← mul_le_mul_iff_left₀ unit_pos, fraction, mul_right_comm, mul_le_mul_iff_left₀ place_pos]
    norm_cast
  have lt_iff (bound : Nat) : (bound * place < value ↔ bound * unit < count) := by
    rw [← not_le, ge_iff, not_le]
  have gt_iff (bound : Nat) : (value < bound * place ↔ count < bound * unit) := by
    rw [← not_le, le_iff, not_le]
  unfold Interval.Holds Interval.contains
  cases closed : interval.closed with
  | false => simp [Interval.scale, closed, lt_iff, gt_iff]
  | true => simp [Interval.scale, closed, le_iff, ge_iff]

def RoundsTo (value : ℚ) (mantissa : Nat) (exponent : Int) : Prop :=
  (Interval.around .double mantissa exponent).Holds (2 ^ (exponent - 2)) value

theorem roundsTo_self (mantissa : Nat) (exponent : Int) (positive : 0 < mantissa) :
    RoundsTo (mantissa * 2 ^ exponent) mantissa exponent := by
  rw [RoundsTo, Interval.holds_iff _ _ _ (4 * mantissa) 1 (by positivity) Nat.one_pos]
  · have low_lt : (Interval.around .double mantissa exponent).low < 4 * mantissa := by
      change (if mantissa = 2 ^ 52 ∧ -1074 < exponent then 4 * mantissa - 1
        else 4 * mantissa - 2) < 4 * mantissa
      split <;> omega
    have lt_high : 4 * mantissa < (Interval.around .double mantissa exponent).high :=
      show 4 * mantissa < 4 * mantissa + 2 by omega
    simp [Interval.contains, Interval.scale, low_lt, lt_high, low_lt.le, lt_high.le]
  · rw [zpow_sub₀ (by norm_num)]
    push_cast
    ring

theorem RoundsTo.lt {value : ℚ} {mantissa : Nat} {exponent : Int}
    (rounds : RoundsTo value mantissa exponent) (storable : Storable mantissa exponent) :
    value < 2 ^ 53 * 2 ^ exponent := by
  have small : (mantissa : ℚ) ≤ 2 ^ 53 - 1 := by
    have := storable.small
    have : mantissa + 1 ≤ 2 ^ 53 := this
    have : (mantissa : ℚ) + 1 ≤ 2 ^ 53 := by exact_mod_cast this
    linarith
  have quarter : (0 : ℚ) < 2 ^ (exponent - 2) := by positivity
  have place : (2 : ℚ) ^ exponent = 2 ^ (exponent - 2) * 4 := by
    rw [zpow_sub₀ (by norm_num)]
    norm_num
  have high_eq : ((Interval.around .double mantissa exponent).high : ℚ) = 4 * mantissa + 2 := by
    change ((4 * mantissa + 2 : Nat) : ℚ) = _
    push_cast
    ring
  have below : value ≤ (4 * mantissa + 2) * 2 ^ (exponent - 2) := by
    rw [← high_eq]
    exact rounds.ends.2
  rw [place]
  calc value ≤ (4 * mantissa + 2) * 2 ^ (exponent - 2) := below
    _ < 2 ^ 55 * 2 ^ (exponent - 2) := by
      apply mul_lt_mul_of_pos_right _ quarter
      linarith
    _ = 2 ^ 53 * (2 ^ (exponent - 2) * 4) := by ring

theorem RoundsTo.quarter_le {value : ℚ} {mantissa : Nat} {exponent : Int}
    (rounds : RoundsTo value mantissa exponent) (positive : 0 < mantissa) :
    2 ^ (exponent - 2) ≤ value := by
  have quarter : (0 : ℚ) < 2 ^ (exponent - 2) := by positivity
  have low_pos : 1 ≤ (Interval.around .double mantissa exponent).low := by
    change 1 ≤ if mantissa = 2 ^ 52 ∧ -1074 < exponent then 4 * mantissa - 1 else 4 * mantissa - 2
    split <;> omega
  have low_cast : (1 : ℚ) ≤ (Interval.around .double mantissa exponent).low := by
    exact_mod_cast low_pos
  exact (le_mul_of_one_le_left quarter.le low_cast).trans rounds.ends.1

theorem RoundsTo.pos {value : ℚ} {mantissa : Nat} {exponent : Int}
    (rounds : RoundsTo value mantissa exponent) (positive : 0 < mantissa) : 0 < value :=
  lt_of_lt_of_le (by positivity) (rounds.quarter_le positive)

theorem roundWithAccuracy_of_roundsTo (side : Sign) (value : ℚ) (count unit mantissa : Nat)
    (place exponent : Int) (unit_pos : 0 < unit) (mantissa_pos : 0 < mantissa)
    (storable : Storable mantissa exponent) (fraction : value * unit = count * 2 ^ place)
    (rounds : RoundsTo value mantissa exponent)
    (fine : place ≤ Format.binary64.targetExponent (totalExponent (count / unit) place)) :
    roundWithAccuracy .binary64 side (count / unit) place
        (accuracyOfFraction (count % unit) unit) =
      .finite side mantissa exponent mantissa_pos := by
  have unit_cast : (0 : ℚ) < unit := by exact_mod_cast unit_pos
  have not_coarse : place ≤ exponent := by
    by_contra coarse
    have low := storable.low
    rw [targetExponent_eq] at fine
    have bits : 52 ≤ (count / unit).log2 := by omega
    have nonzero : count / unit ≠ 0 := by
      intro zero
      rw [zero, Nat.log2_zero] at bits
      omega
    have whole : 2 ^ 52 * unit ≤ count :=
      (Nat.le_div_iff_mul_le unit_pos).mp ((Nat.le_log2 nonzero).mp bits)
    have whole_cast : (2 : ℚ) ^ 52 * unit ≤ count := by exact_mod_cast whole
    have next : (2 : ℚ) ^ exponent * 2 ≤ 2 ^ place := by
      rw [← zpow_add_one₀ (by norm_num)]
      exact zpow_le_zpow_right₀ (by norm_num) (by omega)
    have more : value * unit < value * unit := calc
      value * unit < 2 ^ 53 * 2 ^ exponent * unit :=
        mul_lt_mul_of_pos_right (rounds.lt storable) unit_cast
      _ = 2 ^ 52 * unit * (2 ^ exponent * 2) := by ring
      _ ≤ count * 2 ^ place := mul_le_mul whole_cast next (by positivity) (by positivity)
      _ = value * unit := fraction.symm
    exact more.false
  obtain ⟨steps, rfl⟩ : ∃ steps : Nat, exponent = place + steps :=
    ⟨(exponent - place).toNat, by omega⟩
  apply roundWithAccuracy_of_contains side count unit steps mantissa place unit_pos mantissa_pos
    storable fine
  rw [← Interval.holds_iff _ (2 ^ (place + steps - 2)) value _ _ (by positivity) (by positivity)]
  · exact rounds
  · push_cast
    rw [← mul_assoc, fraction, zpow_sub₀ (by norm_num), zpow_add₀ (by norm_num), zpow_natCast]
    ring

end Cartograph.Number

import Mathlib
import Cartograph.Proofs.Number.Formats

/-! The double that a decimal is read as. Small decimals are read by one operation on two exact
doubles and all others by exact arithmetic; both give the double that the decimal rounds to. -/

namespace Cartograph.Number

open Float.Model Float.Model.UnpackedFloat

theorem mul_of_roundsTo (first second mantissa : Nat) (place other exponent : Int)
    (first_pos : 0 < first) (second_pos : 0 < second) (mantissa_pos : 0 < mantissa)
    (storable : Storable mantissa exponent) (wide : 2 ^ 52 ≤ first * second)
    (rounds : RoundsTo (first * 2 ^ place * (second * 2 ^ other)) mantissa exponent) :
    UnpackedFloat.mul .binary64 (.finite .positive first place first_pos)
        (.finite .positive second other second_pos) =
      .finite .positive mantissa exponent mantissa_pos := by
  have bits : 52 ≤ (first * second).log2 := (Nat.le_log2 (by positivity)).mpr wide
  have rounded := roundWithAccuracy_of_roundsTo .positive _ (first * second) 1 mantissa
    (place + other) exponent Nat.one_pos mantissa_pos storable
    (by rw [zpow_add₀ (by norm_num)]; push_cast; ring) rounds
    (by rw [targetExponent_eq, Nat.div_one]; omega)
  rwa [Nat.div_one, Nat.mod_one] at rounded

theorem div_of_roundsTo (first second mantissa : Nat) (place other exponent : Int)
    (first_pos : 0 < first) (second_pos : 0 < second) (mantissa_pos : 0 < mantissa)
    (storable : Storable mantissa exponent)
    (rounds : RoundsTo (first * 2 ^ place / (second * 2 ^ other)) mantissa exponent) :
    UnpackedFloat.div .binary64 (.finite .positive first place first_pos)
        (.finite .positive second other second_pos) =
      .finite .positive mantissa exponent mantissa_pos := by
  obtain ⟨shift, fine, fraction, core⟩ :=
    divCore_in .binary64 first second place other first_pos second_pos
  have rounded := roundWithAccuracy_of_roundsTo .positive _ (first <<< shift) second mantissa
    (place - other - shift) exponent second_pos mantissa_pos storable fraction rounds fine
  simp only [UnpackedFloat.div, core]
  exact rounded

def Binary.StandsFor (whole : Nat) : Binary → Prop
  | .finite false mantissa exponent =>
    2 ^ 52 ≤ mantissa ∧ mantissa * 2 ^ exponent.toNat = whole * 2 ^ (-exponent).toNat
  | _ => False

instance (whole : Nat) (parts : Binary) : Decidable (parts.StandsFor whole) :=
  match parts with
  | .notANumber => isFalse id
  | .infinite _ => isFalse id
  | .finite true _ _ => isFalse id
  | .finite false _ _ => inferInstanceAs (Decidable (_ ∧ _))

structure IsWhole (x : Float) (whole mantissa : Nat) (exponent : Int) : Prop where
  wide : 2 ^ 52 ≤ mantissa
  storable : Storable mantissa exponent
  packed : x = Float.ofModel (.pack (Binary.finite false mantissa exponent).unpacked)
  value : (mantissa : ℚ) * 2 ^ exponent = whole

theorem isWhole_of_standsFor (x : Float) (whole : Nat) (stands : (ofDouble x).StandsFor whole) :
    ∃ mantissa exponent, IsWhole x whole mantissa exponent := by
  have packed := eq_pack x
  cases parts : ofDouble x with
  | notANumber => simp [parts, Binary.StandsFor] at stands
  | infinite negative => simp [parts, Binary.StandsFor] at stands
  | finite negative mantissa exponent =>
    cases negative with
    | true => simp [parts, Binary.StandsFor] at stands
    | false =>
      rw [parts] at stands packed
      obtain ⟨wide, equal⟩ := stands
      refine ⟨mantissa, exponent, wide, storable_of_finite x _ _ _ parts, packed, ?_⟩
      have cast : (mantissa : ℚ) * 2 ^ exponent.toNat = whole * 2 ^ (-exponent).toNat := by
        exact_mod_cast equal
      have split : exponent = exponent.toNat - (-exponent).toNat := by omega
      rw [split, zpow_sub₀ (by norm_num), zpow_natCast, zpow_natCast, ← mul_div_assoc, cast]
      field_simp

theorem standsFor_power : ∀ place : Fin Float.exactlyRepresentablePowersOfTen.size,
    (ofDouble Float.exactlyRepresentablePowersOfTen[place]).StandsFor (10 ^ place.val) := by
  decide +kernel

theorem isWhole_power (place : Nat) (small : place < Float.exactlyRepresentablePowersOfTen.size) :
    ∃ mantissa exponent,
      IsWhole Float.exactlyRepresentablePowersOfTen[place] (10 ^ place) mantissa exponent :=
  isWhole_of_standsFor _ _ (standsFor_power ⟨place, small⟩)

section Operations

variable {x y : Float} {first second mantissa mantissa' : Nat} {place place' : Int}

theorem IsWhole.positive (whole : IsWhole x first mantissa place) : 0 < mantissa :=
  lt_of_lt_of_le (by decide) whole.wide

theorem IsWhole.unpack_eq (whole : IsWhole x first mantissa place) (positive : 0 < mantissa) :
    x.toModel.unpack = .finite .positive mantissa place positive := by
  rw [whole.packed, unpacked_finite false mantissa place positive]
  exact unpack_pack _ mantissa place positive whole.storable

theorem IsWhole.mul_eq (left : IsWhole x first mantissa place)
    (right : IsWhole y second mantissa' place') (result : Nat) (exponent : Int)
    (positive : 0 < result) (storable : Storable result exponent)
    (rounds : RoundsTo (first * second) result exponent) :
    x * y = Float.ofModel (.pack (.finite .positive result exponent positive)) := by
  change Float.ofModel (.pack (.mul .binary64 x.toModel.unpack y.toModel.unpack)) = _
  have wide : 2 ^ 52 ≤ mantissa * mantissa' :=
    left.wide.trans (Nat.le_mul_of_pos_right _ right.positive)
  rw [left.unpack_eq left.positive, right.unpack_eq right.positive,
    mul_of_roundsTo mantissa mantissa' result place place'
    exponent left.positive right.positive positive storable wide
    (by rwa [left.value, right.value])]

theorem IsWhole.div_eq (left : IsWhole x first mantissa place)
    (right : IsWhole y second mantissa' place') (result : Nat) (exponent : Int)
    (positive : 0 < result) (storable : Storable result exponent)
    (rounds : RoundsTo (first / second) result exponent) :
    x / y = Float.ofModel (.pack (.finite .positive result exponent positive)) := by
  change Float.ofModel (.pack (.div .binary64 x.toModel.unpack y.toModel.unpack)) = _
  rw [left.unpack_eq left.positive, right.unpack_eq right.positive,
    div_of_roundsTo mantissa mantissa' result place place'
    exponent left.positive right.positive positive storable
    (by rwa [left.value, right.value])]

end Operations

theorem isWhole_toFloat (whole : Nat) (positive : 0 < whole) (small : whole < 2 ^ 53) :
    ∃ mantissa exponent, IsWhole whole.toUInt64.toFloat whole mantissa exponent := by
  have bits : whole.log2 < 53 := (Nat.log2_lt positive.ne').mpr small
  have width : (whole <<< (52 - whole.log2)).log2 = 52 := by
    rw [log2_shiftLeft whole _ positive]
    omega
  have shifted_pos : 0 < whole <<< (52 - whole.log2) := Nat.shiftLeft_pos_iff.mpr positive
  have range := (Nat.log2_eq_iff shifted_pos.ne').mp width
  have storable : Storable (whole <<< (52 - whole.log2)) (whole.log2 - 52) := by
    constructor <;> omega
  refine ⟨_, _, range.1, storable, ?_, ?_⟩
  · have target : Format.binary64.targetExponent (totalExponent whole 0) = whole.log2 - 52 := by
      rw [targetExponent_eq]
      omega
    have amount : (0 - ((whole.log2 : Int) - 52)).toNat = 52 - whole.log2 := by omega
    have exponent_eq : (0 : Int) - (52 - whole.log2 : Nat) = whole.log2 - 52 := by omega
    have count : whole.toUInt64.toNat = whole := UInt64.toNat_ofNat_of_lt' (by
      change whole < 2 ^ 64
      omega)
    have rounded := roundWithAccuracy_of_roundsTo .positive _ (whole <<< (52 - whole.log2)) 1
      _ (whole.log2 - 52) _ Nat.one_pos shifted_pos storable (by rw [Nat.cast_one, mul_one])
      (roundsTo_self _ _ shifted_pos) (by rw [Nat.div_one, storable.targetExponent_eq])
    rw [Nat.div_one, Nat.mod_one] at rounded
    rw [unpacked_finite false _ _ shifted_pos]
    change Float.ofModel (.pack (.normalize .binary64 (whole.toUInt64.toNat : Int) 0 .positive)) = _
    rw [count, UnpackedFloat.normalize, Int.compare_eq_gt.mpr (by omega)]
    simp only [UnpackedFloat.round, decreaseExponent, target, amount, exponent_eq,
      Int.toNat_natCast]
    exact congrArg (fun parts => Float.ofModel (.pack parts)) rounded
  · rw [Nat.shiftLeft_eq, show (whole.log2 : Int) - 52 = -((52 - whole.log2 : Nat) : Int) by omega,
      zpow_neg, zpow_natCast]
    push_cast
    field_simp

section Decimal

variable (coefficient mantissa : Nat) (place exponent : Int) (positive : 0 < mantissa)
  (storable : Storable mantissa exponent)
  (rounds : RoundsTo (coefficient * 10 ^ place) mantissa exponent)

include positive rounds in
theorem coefficient_pos : 0 < coefficient := by
  rcases Nat.eq_zero_or_pos coefficient with zero | positive
  · have := rounds.pos positive
    rw [zero, Nat.cast_zero, zero_mul] at this
    exact absurd this (lt_irrefl 0)
  · exact positive

include positive storable rounds in
theorem place_le : place ≤ 2048 := by
  by_contra large
  have whole : (1 : ℚ) ≤ coefficient := by
    exact_mod_cast coefficient_pos coefficient mantissa place exponent positive rounds
  have above : (2 : ℚ) ^ (2048 : Int) ≤ coefficient * 10 ^ place := calc
    (2 : ℚ) ^ (2048 : Int) ≤ 2 ^ place := zpow_le_zpow_right₀ (by norm_num) (by omega)
    _ ≤ 10 ^ place := zpow_le_zpow_left₀ (by omega) (by norm_num) (by norm_num)
    _ ≤ coefficient * 10 ^ place := le_mul_of_one_le_left (by positivity) whole
  have below : (coefficient : ℚ) * 10 ^ place < 2 ^ (1024 : Int) := calc
    (coefficient : ℚ) * 10 ^ place < 2 ^ 53 * 2 ^ exponent := rounds.lt storable
    _ = 2 ^ (53 + exponent) := by rw [zpow_add₀ (by norm_num)]; norm_num
    _ ≤ 2 ^ (1024 : Int) := by
      have := storable.high
      exact zpow_le_zpow_right₀ (by norm_num) (by omega)
  have order : (2 : ℚ) ^ (1024 : Int) ≤ 2 ^ (2048 : Int) :=
    zpow_le_zpow_right₀ (by norm_num) (by norm_num)
  exact absurd (below.trans_le order) (not_lt.mpr above)

include positive storable rounds in
theorem le_place : -(2048 + coefficient.log2 : Int) ≤ place := by
  by_contra tiny
  have count : (coefficient : ℚ) ≤ 2 ^ ((coefficient.log2 + 1 : Nat) : Int) := by
    rw [zpow_natCast]
    exact_mod_cast Nat.lt_log2_self.le
  have small : (10 : ℚ) ^ place ≤ 2 ^ place := by
    have reach : place = -((-place).toNat : Int) := by omega
    rw [reach, zpow_neg, zpow_neg, zpow_natCast, zpow_natCast]
    exact inv_anti₀ (by positivity) (pow_le_pow_left₀ (by norm_num) (by norm_num) _)
  have below : (coefficient : ℚ) * 10 ^ place < 2 ^ (exponent - 2) := calc
    (coefficient : ℚ) * 10 ^ place ≤ 2 ^ ((coefficient.log2 + 1 : Nat) : Int) * 2 ^ place :=
      mul_le_mul count small (by positivity) (by positivity)
    _ = 2 ^ ((coefficient.log2 + 1 : Nat) + place) := by rw [zpow_add₀ (by norm_num)]
    _ < 2 ^ (exponent - 2) := by
      have := storable.low
      exact zpow_lt_zpow_right₀ (by norm_num) (by omega)
  exact absurd below (not_lt.mpr (rounds.quarter_le positive))

include storable rounds in
theorem ofScientific_model :
    UnpackedFloat.ofScientific .binary64 coefficient place =
      .finite .positive mantissa exponent positive := by
  have coefficient_pos := coefficient_pos coefficient mantissa place exponent positive rounds
  have high := place_le coefficient mantissa place exponent positive storable rounds
  have low := le_place coefficient mantissa place exponent positive storable rounds
  have not_above : ¬ place > 2 ^ Format.binary64.exponentBits := by
    change ¬ place > 2048
    omega
  have not_below : ¬ place < -((2 ^ Format.binary64.exponentBits : Int) + coefficient.log2) := by
    change ¬ place < -((2048 : Int) + coefficient.log2)
    omega
  rw [UnpackedFloat.ofScientific, dif_neg coefficient_pos.ne', if_neg not_above,
    if_neg not_below]
  rcases lt_or_ge place 0 with fraction | whole
  · obtain ⟨places, rfl⟩ : ∃ places : Nat, place = -(places : Int) :=
      ⟨(-place).toNat, by omega⟩
    rw [if_neg (by omega)]
    apply div_of_roundsTo _ _ _ _ _ _ _ _ _ storable
    rw [neg_neg, Int.toNat_natCast]
    convert rounds using 1
    rw [zpow_neg, zpow_natCast]
    push_cast
    field_simp
  · obtain ⟨places, rfl⟩ := Int.eq_ofNat_of_zero_le whole
    have wide : 2 ^ 52 ≤ coefficient <<< 53 * 10 ^ places := by
      rw [Nat.shiftLeft_eq]
      calc 2 ^ 52 ≤ 1 * 2 ^ 53 := by norm_num
        _ ≤ coefficient * 2 ^ 53 := Nat.mul_le_mul_right _ coefficient_pos
        _ ≤ coefficient * 2 ^ 53 * 10 ^ places := Nat.le_mul_of_pos_right _ (by positivity)
    rw [if_pos whole]
    apply mul_of_roundsTo _ _ _ _ _ _ _ _ _ storable wide
    convert rounds using 1
    rw [Nat.shiftLeft_eq]
    change ((coefficient * 2 ^ 53 : Nat) : ℚ) * 2 ^ (-(53 : Nat) : Int) * _ = _
    rw [zpow_neg, zpow_natCast, zpow_natCast]
    push_cast
    field_simp
    norm_num

include storable rounds in
theorem ofScientific_of_roundsTo :
    Float.ofScientific coefficient (place < 0) place.natAbs =
      Float.ofModel (.pack (.finite .positive mantissa exponent positive)) := by
  have coefficient_pos := coefficient_pos coefficient mantissa place exponent positive rounds
  unfold Float.ofScientific
  split
  · next fast =>
    obtain ⟨_, _, count⟩ := isWhole_toFloat coefficient coefficient_pos fast.1
    obtain ⟨_, _, power⟩ := isWhole_power place.natAbs (Nat.lt_succ_of_le fast.2)
    split
    · next fraction =>
      have negative : place < 0 := of_decide_eq_true fraction
      apply count.div_eq power _ _ positive storable
      convert rounds using 1
      rw [← Int.neg_neg place, ← Int.ofNat_natAbs_of_nonpos negative.le, zpow_neg, zpow_natCast,
        Int.natAbs_neg, Int.natAbs_natCast]
      push_cast
      rw [div_eq_mul_inv]
    · next whole =>
      have nonnegative : 0 ≤ place := not_lt.mp fun negative => whole (decide_eq_true negative)
      apply count.mul_eq power _ _ positive storable
      convert rounds using 1
      rw [← Int.natAbs_of_nonneg nonnegative, zpow_natCast, Int.natAbs_natCast]
      push_cast
      rfl
  · have model := ofScientific_model coefficient mantissa place exponent positive storable rounds
    have place_eq : (if (decide (place < 0)) = true then Int.negOfNat place.natAbs
        else Int.ofNat place.natAbs) = place := by
      rcases lt_or_ge place 0 with fraction | whole
      · rw [if_pos (decide_eq_true fraction), Int.negOfNat_eq, Int.ofNat_eq_natCast,
          Int.ofNat_natAbs_of_nonpos fraction.le, Int.neg_neg]
      · rw [if_neg (by simpa using whole)]
        exact Int.natAbs_of_nonneg whole
    simp only [place_eq]
    exact congrArg (fun parts => Float.ofModel (.pack parts)) model

end Decimal

end Cartograph.Number

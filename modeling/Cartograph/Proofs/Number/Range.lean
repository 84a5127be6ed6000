import Cartograph.Proofs.Number.Formats
import Cartograph.Proofs.Number.Order

/-! How far sums and products of doubles can reach. Rounding raises the place of the last bit by
one at most, so the places of the operands bound the place of the result; a result far enough
below the largest place is no infinity. -/

namespace Cartograph.Number

open Float.Model Float.Model.UnpackedFloat

/-- A zero, or a number whose last bit counts `2 ^ limit` at most. -/
def Within (limit : Int) : UnpackedFloat → Prop
  | .notANumber => False
  | .infinity _ => False
  | .zero _ => True
  | .finite _ _ exponent _ => exponent ≤ limit

theorem shiftToTargetExponent_exact (mantissa : Nat) (exponent : Int) :
    ∃ steps : Nat, mantissa.log2 ≤ 52 + steps ∧
      exponent + steps = max exponent (max (mantissa.log2 + 1 + exponent - 53) (-1074)) ∧
      shiftToTargetExponent .binary64 mantissa exponent .exact =
        (extended mantissa (2 ^ steps), exponent + steps) := by
  obtain ⟨steps, short, place_eq, shifted⟩ :=
    shiftToTargetExponent_in .binary64 mantissa 1 exponent Nat.one_pos
  rw [Nat.div_one] at short place_eq
  simp only [Nat.div_one, Nat.mod_one, Nat.one_mul, accuracy_whole] at shifted
  have bits : mantissa.log2 < 53 + steps := short
  exact ⟨steps, by omega, place_eq, shifted⟩

section Rounding

variable (side : Sign) (mantissa bits : Nat) (exponent limit : Int)
  (small : mantissa < 2 ^ (bits + 1)) (size : bits + exponent ≤ limit + 51)
  (place : exponent < limit) (low : -1074 < limit)

include small size place low

theorem within_roundWithAccuracy :
    Within limit (roundWithAccuracy .binary64 side mantissa exponent .exact) := by
  have log2_le := log2_le_of_lt mantissa bits small
  obtain ⟨steps, short, place_eq, first⟩ := shiftToTargetExponent_exact mantissa exponent
  have rounded_eq := roundedMantissa_extended mantissa (2 ^ steps) (by positivity)
  -- What is left of the mantissa has 53 bits, and rounding may carry into one more.
  have carried : (nearestWhole mantissa (2 ^ steps)).log2 ≤ 53 := by
    have whole : mantissa / 2 ^ steps < 2 ^ 53 := by
      rw [Nat.div_lt_iff_lt_mul (by positivity), ← Nat.pow_add]
      exact Nat.lt_log2_self.trans_le (Nat.pow_le_pow_right (by decide) (by omega))
    have rounded := nearestWhole_le mantissa (2 ^ steps)
    apply log2_le_of_lt
    omega
  obtain ⟨more, -, last_eq, second⟩ :=
    shiftToTargetExponent_exact (nearestWhole mantissa (2 ^ steps)) (exponent + steps)
  rw [roundWithAccuracy, first]
  simp only [rounded_eq, second]
  split
  · trivial
  · change exponent + steps + more ≤ limit
    omega

theorem within_round : Within limit (UnpackedFloat.round .binary64 side mantissa exponent) := by
  obtain ⟨steps, -, moved⟩ := decreaseExponent_eq mantissa exponent
    (Format.binary64.targetExponent (totalExponent mantissa exponent))
  rw [UnpackedFloat.round]
  simp only [moved]
  have shifted : mantissa * 2 ^ steps < 2 ^ (bits + steps + 1) := by
    rw [Nat.add_right_comm, Nat.pow_add _ (bits + 1)]
    exact Nat.mul_lt_mul_of_pos_right small (by positivity)
  apply within_roundWithAccuracy side _ (bits + steps) _ _ shifted
  · push_cast
    omega
  · omega
  · exact low

end Rounding

theorem within_packComponents (limit : Int) (low : -1074 ≤ limit) (side : Sign)
    (exponent : BitVec Format.binary64.exponentBits)
    (mantissa : BitVec Format.binary64.mantissaBitsWithoutImplicit)
    (high : (exponent.toNat : Int) ≤ limit + 1075) (finite : exponent.toNat < 2047) :
    Within limit (UnpackedFloat.unpack .binary64
      (packComponents .binary64 side exponent mantissa)) := by
  rw [unpack_packComponents]
  have not_special : exponent ≠ -1#_ := by
    rintro rfl
    exact absurd finite (by decide)
  rw [if_neg not_special]
  split
  · next smallest =>
    split
    · trivial
    · rw [smallest]
      exact low
  · change (exponent.toNat : Int) - ((1023 : Nat) + (52 : Nat)) ≤ limit
    omega

theorem within_pack (limit : Int) (low : -1074 ≤ limit) (high : limit ≤ 971)
    (x : UnpackedFloat) (within : Within limit x) :
    Within limit (UnpackedFloat.unpack .binary64 (UnpackedFloat.pack .binary64 x)) := by
  cases x with
  | notANumber => exact within.elim
  | infinity => exact within.elim
  | zero side =>
    apply within_packComponents limit low
    · change (0 : Int) ≤ limit + 1075
      omega
    · decide
  | finite side mantissa exponent positive =>
    have small : exponent ≤ limit := within
    obtain ⟨biased, biased_eq⟩ : ∃ biased : Nat, (exponent + (1023 : Nat) + (52 : Nat)).toNat =
        biased := ⟨_, rfl⟩
    have stored : (exponent + Format.binary64.exponentBias +
        Format.binary64.mantissaBitsWithoutImplicit).toNat = biased := biased_eq
    have biased_toNat : (BitVec.ofNat Format.binary64.exponentBits biased).toNat = biased :=
      Nat.mod_eq_of_lt (by change biased < 2048; omega)
    rw [UnpackedFloat.pack]
    simp only [stored]
    rw [if_neg (by change ¬ 2048 ≤ biased + 1; omega)]
    split
    · apply within_packComponents limit low <;> rw [biased_toNat] <;> omega
    · apply within_packComponents limit low
      · change (0 : Int) ≤ limit + 1075
        omega
      · decide

/-- A double whose last bit counts `2 ^ limit` at most. -/
def Bounded (limit : Int) (x : Float) : Prop := Within limit x.toModel.unpack

theorem bounded_cases (limit : Int) (x : Float) (bounded : Bounded limit x) :
    (∃ side, x.toModel.unpack = .zero side) ∨
      ∃ side mantissa exponent positive,
        x.toModel.unpack = .finite side mantissa exponent positive ∧
          mantissa < 2 ^ 53 ∧ exponent ≤ limit := by
  unfold Bounded at bounded
  cases shape : x.toModel.unpack with
  | notANumber | infinity =>
    rw [shape] at bounded
    exact bounded.elim
  | zero side => exact .inl ⟨side, rfl⟩
  | finite side mantissa exponent positive =>
    rw [shape] at bounded
    have number : x.isNaN = false := by
      change x.toModel.unpack.isNaN = false
      rw [shape]
      rfl
    have canonical := canonical_of_number x number
    rw [← unpack_eq_ofDouble, shape] at canonical
    exact .inr ⟨side, mantissa, exponent, positive, rfl, Storable.small canonical, bounded⟩

theorem isFinite_of_bounded (limit : Int) (x : Float) (bounded : Bounded limit x) :
    x.isFinite = true := by
  change x.toModel.unpack.isFinite = true
  rcases bounded_cases limit x bounded with ⟨side, shape⟩ | ⟨side, mantissa, exponent, _, shape, -⟩
  · rw [shape]
    rfl
  · rw [shape]
    rfl

theorem bounded_mul (a b : Int) (x y : Float) (a_nonneg : 0 ≤ a) (b_nonneg : 0 ≤ b)
    (room : a + b ≤ 917) (left : Bounded a x) (right : Bounded b y) :
    Bounded (a + b + 54) (x * y) := by
  apply within_pack _ (by omega) (by omega)
  rcases bounded_cases a x left with
    ⟨side, first⟩ | ⟨side, mantissa, exponent, _, first, short, small⟩
  · rcases bounded_cases b y right with ⟨_, second⟩ | ⟨_, _, _, _, second, -⟩
    · rw [first, second]
      trivial
    · rw [first, second]
      trivial
  · rcases bounded_cases b y right with
      ⟨_, second⟩ | ⟨side', mantissa', exponent', _, second, short', small'⟩
    · rw [first, second]
      trivial
    · have product : mantissa * mantissa' < 2 ^ 53 * 2 ^ 53 := Nat.mul_lt_mul'' short short'
      rw [first, second]
      exact within_roundWithAccuracy _ _ 105 _ _ product (by omega) (by omega) (by omega)

theorem within_normalize (total : Int) (bits : Nat) (exponent limit : Int) (zeroSign : Sign)
    (small : total.natAbs < 2 ^ (bits + 1)) (size : bits + exponent ≤ limit + 51)
    (place : exponent < limit) (low : -1074 < limit) :
    Within limit (UnpackedFloat.normalize .binary64 total exponent zeroSign) := by
  unfold UnpackedFloat.normalize
  rcases lt_trichotomy total 0 with negative | rfl | positive
  · rw [compare_lt_iff_lt.mpr negative]
    exact within_round _ _ bits _ _ (by omega) size place low
  · trivial
  · rw [compare_gt_iff_gt.mpr positive]
    exact within_round _ _ bits _ _ (by omega) size place low

theorem natAbs_apply (side : Sign) (mantissa : Nat) :
    (side.apply (mantissa : Int)).natAbs = mantissa := by
  cases side <;> simp [Sign.apply]

theorem within_mono (limit higher : Int) (le : limit ≤ higher) (x : UnpackedFloat)
    (within : Within limit x) : Within higher x := by
  cases x with
  | notANumber | infinity => exact within
  | zero => trivial
  | finite side mantissa exponent positive => exact le_trans (show exponent ≤ limit from within) le

theorem within_sum (a : Int) (a_nonneg : 0 ≤ a) (side side' : Sign) (mantissa mantissa' : Nat)
    (exponent exponent' : Int) (positive : 0 < mantissa) (positive' : 0 < mantissa')
    (short : mantissa < 2 ^ 53) (short' : mantissa' < 2 ^ 53) (small : exponent ≤ a)
    (small' : exponent' ≤ a) :
    Within (a + 2) (UnpackedFloat.add .binary64 (.finite side mantissa exponent positive)
      (.finite side' mantissa' exponent' positive')) := by
  obtain ⟨steps, steps_eq, moved⟩ := decreaseExponent_eq mantissa exponent (min exponent exponent')
  obtain ⟨steps', steps_eq', moved'⟩ :=
    decreaseExponent_eq mantissa' exponent' (min exponent exponent')
  simp only [UnpackedFloat.add, moved, moved']
  obtain ⟨most, most_eq⟩ : ∃ most : Nat, (a - min exponent exponent').toNat = most := ⟨_, rfl⟩
  have first : mantissa * 2 ^ steps < 2 ^ (53 + most) := by
    rw [Nat.pow_add]
    exact Nat.mul_lt_mul_of_lt_of_le short (Nat.pow_le_pow_right (by decide) (by omega))
      (by positivity)
  have second : mantissa' * 2 ^ steps' < 2 ^ (53 + most) := by
    rw [Nat.pow_add]
    exact Nat.mul_lt_mul_of_lt_of_le short' (Nat.pow_le_pow_right (by decide) (by omega))
      (by positivity)
  have total : (side.apply ((mantissa * 2 ^ steps : Nat) : Int) +
      side'.apply ((mantissa' * 2 ^ steps' : Nat) : Int)).natAbs < 2 ^ (53 + most + 1) := by
    apply (Int.natAbs_add_le _ _).trans_lt
    rw [natAbs_apply, natAbs_apply, Nat.pow_succ]
    omega
  apply within_normalize _ (53 + most) _ _ _ total
  · push_cast
    omega
  · omega
  · omega

theorem bounded_add (a : Int) (x y : Float) (a_nonneg : 0 ≤ a) (room : a ≤ 969)
    (left : Bounded a x) (right : Bounded a y) : Bounded (a + 2) (x + y) := by
  apply within_pack _ (by omega) (by omega)
  rcases bounded_cases a x left with
    ⟨side, first⟩ | ⟨side, mantissa, exponent, _, first, short, small⟩
  · rcases bounded_cases a y right with
      ⟨_, second⟩ | ⟨_, _, exponent', _, second, -, small'⟩
    · rw [first, second, UnpackedFloat.add]
      split <;> trivial
    · rw [first, second]
      change exponent' ≤ a + 2
      omega
  · rcases bounded_cases a y right with
      ⟨_, second⟩ | ⟨side', mantissa', exponent', _, second, short', small'⟩
    · rw [first, second]
      change exponent ≤ a + 2
      omega
    · rw [first, second]
      exact within_sum a a_nonneg _ _ _ _ _ _ _ _ short short' small small'

def isModerate (x : Float) : Bool := -1e150 ≤ x && x ≤ 1e150

theorem bounded_of_moderate (x : Float) (moderate : isModerate x = true) : Bounded 446 x := by
  simp only [isModerate, Bool.and_eq_true, decide_eq_true_eq] at moderate
  obtain ⟨low, high⟩ := moderate
  obtain ⟨low_number, number⟩ := numbers_of_le _ _ low
  obtain ⟨-, high_number⟩ := numbers_of_le _ _ high
  rw [le_iff _ _ low_number number] at low
  rw [le_iff _ _ number high_number] at high
  have highest : ordinal 1e150 = 6850974717710472879 := by decide +kernel
  have lowest : ordinal (-1e150) = -6850974717710472879 := by decide +kernel
  have canonical := canonical_of_number x number
  rw [lowest] at low
  rw [highest] at high
  unfold ordinal at low high
  unfold Bounded
  rw [← unpack_eq_ofDouble] at low high canonical
  cases shape : x.toModel.unpack with
  | notANumber =>
    rw [shape] at canonical
    exact canonical.elim
  | infinity side =>
    rw [shape] at low high
    cases side <;> simp only [rung, Sign.apply] at low high <;> omega
  | zero => trivial
  | finite side mantissa exponent positive =>
    rw [shape] at low high canonical
    change exponent ≤ 446
    have full := canonical.full
    cases side <;> simp only [rung, Sign.apply] at low high <;> omega

end Cartograph.Number

import Cartograph.Proofs.Number.Range
import Cartograph.Proofs.Number.Scientific

/-! How far rounding leads away from the exact result. A sum or a difference is off by a part in
`2 ^ 53` at most; a product is too, and by half a place of the last bit of all where it is smaller
than normal doubles. -/

namespace Cartograph.Number

open Float.Model Float.Model.UnpackedFloat

/-- The part of a result that rounding can change it by. -/
@[irreducible] def roundoff : ℚ := 2 ^ (-53 : Int)

/-- Half the place of the last bit of the smallest doubles. -/
@[irreducible] def underflow : ℚ := 2 ^ (-1075 : Int)

theorem roundoff_pos : 0 < roundoff := by unfold roundoff; positivity

theorem underflow_pos : 0 < underflow := by unfold underflow; positivity

def Settled : UnpackedFloat → Prop
  | .notANumber => False
  | .infinity _ => False
  | .zero _ => True
  | .finite _ mantissa exponent _ =>
    mantissa < 2 ^ 53 ∧ -1074 ≤ exponent ∧ (mantissa < 2 ^ 52 → exponent = -1074)

theorem roundoffIn_binary64 : roundoffIn .binary64 = roundoff := by
  rw [roundoffIn, roundoff]
  rfl

theorem underflowIn_binary64 : underflowIn .binary64 = underflow := by
  rw [underflowIn, underflow]
  rfl

section Rounding

variable (side : Sign) (mantissa : Nat) (exponent : Int)

section Fraction

variable (count unit : Nat) (unit_pos : 0 < unit)

include unit_pos

theorem rational_roundWithAccuracy :
    ∃ steps : Nat,
      exponent + steps =
        max exponent (max ((count / unit).log2 + 1 + exponent - 53) (-1074)) ∧
      rational (roundWithAccuracy .binary64 side (count / unit) exponent
          (accuracyOfFraction (count % unit) unit)) =
        (side.apply 1 : Int) *
          (nearestWhole count (unit * 2 ^ steps) * 2 ^ (exponent + steps)) :=
  rational_roundWithAccuracy_in .binary64 side count unit exponent unit_pos

theorem settled_roundWithAccuracy
    (fine : exponent ≤ max ((count / unit).log2 + 1 + exponent - 53) (-1074)) :
    Settled (roundWithAccuracy .binary64 side (count / unit) exponent
      (accuracyOfFraction (count % unit) unit)) :=
  settled_roundWithAccuracy_in .binary64 side count unit exponent unit_pos fine

end Fraction

theorem settled_roundWithAccuracy_exact
    (fine : exponent ≤ max (mantissa.log2 + 1 + exponent - 53) (-1074)) :
    Settled (roundWithAccuracy .binary64 side mantissa exponent .exact) :=
  (near_roundWithAccuracy_exact .binary64 side mantissa exponent fine).1

theorem round_eq (positive : 0 < mantissa) :
    ∃ steps : Nat,
      exponent - steps = min exponent (max (mantissa.log2 + 1 + exponent - 53) (-1074)) ∧
      exponent - steps ≤
        max ((mantissa * 2 ^ steps).log2 + 1 + (exponent - steps) - 53) (-1074) ∧
      ((mantissa * 2 ^ steps : Nat) : ℚ) * 2 ^ (exponent - steps) = mantissa * 2 ^ exponent ∧
      UnpackedFloat.round .binary64 side mantissa exponent =
        roundWithAccuracy .binary64 side (mantissa * 2 ^ steps) (exponent - steps) .exact :=
  round_in .binary64 side mantissa exponent positive

end Rounding

theorem mul_eq_rounded (side side' : Sign) (mantissa mantissa' : Nat) (exponent exponent' : Int)
    (positive : 0 < mantissa) (positive' : 0 < mantissa')
    (left : Settled (.finite side mantissa exponent positive))
    (right : Settled (.finite side' mantissa' exponent' positive')) :
    rational (.finite side mantissa exponent positive) *
          rational (.finite side' mantissa' exponent' positive') =
        (((side * side').apply ((mantissa * mantissa' : Nat) : Int) : Int) : ℚ) *
          2 ^ (exponent + exponent') ∧
      exponent + exponent' ≤
        max ((mantissa * mantissa').log2 + 1 + (exponent + exponent') - 53) (-1074) ∧
      UnpackedFloat.mul .binary64 (.finite side mantissa exponent positive)
          (.finite side' mantissa' exponent' positive') =
        roundWithAccuracy .binary64 (side * side') (mantissa * mantissa') (exponent + exponent')
          .exact :=
  mul_in .binary64 side side' mantissa mantissa' exponent exponent' positive positive' left right

section Operations

variable (x y : UnpackedFloat) (left : Settled x) (right : Settled y)

include left right

theorem add_near :
    Settled (UnpackedFloat.add .binary64 x y) ∧
      |rational (UnpackedFloat.add .binary64 x y) - (rational x + rational y)| ≤
        roundoff * |rational x + rational y| := by
  rw [← roundoffIn_binary64]
  exact near_add .binary64 x y left right

theorem mul_near :
    Settled (UnpackedFloat.mul .binary64 x y) ∧
      |rational (UnpackedFloat.mul .binary64 x y) - rational x * rational y| ≤
        roundoff * |rational x * rational y| + underflow := by
  rw [← roundoffIn_binary64, ← underflowIn_binary64]
  exact near_mul .binary64 x y left right

theorem sub_eq_add_opposite :
    UnpackedFloat.sub .binary64 x y = UnpackedFloat.add .binary64 x y.neg :=
  sub_in .binary64 x y left right

omit left in
theorem settled_neg : Settled y.neg ∧ rational y.neg = -rational y :=
  neg_in .binary64 y right

theorem sub_near :
    Settled (UnpackedFloat.sub .binary64 x y) ∧
      |rational (UnpackedFloat.sub .binary64 x y) - (rational x - rational y)| ≤
        roundoff * |rational x - rational y| := by
  rw [← roundoffIn_binary64]
  exact near_sub .binary64 x y left right

end Operations

theorem unpack_settled (x : UnpackedFloat) (settled : Settled x)
    (room : |rational x| < 2 ^ (1024 : Int)) :
    UnpackedFloat.unpack .binary64 (UnpackedFloat.pack .binary64 x) = x :=
  unpack_settledIn .binary64 x (by decide) settled room

/-- What a double stands for. -/
def value (x : Float) : ℚ := rational x.toModel.unpack

theorem settled_of_isFinite (x : Float) (finite : x.isFinite = true) :
    Settled x.toModel.unpack :=
  settledIn_unpack .binary64 _ finite

/-- Results up to this size do not overflow. -/
def largest : ℚ := 10 ^ 250

theorem value_of_pack (x : Float) (result : UnpackedFloat) (target error : ℚ)
    (packed : x.toModel.unpack =
      UnpackedFloat.unpack .binary64 (UnpackedFloat.pack .binary64 result))
    (near : Settled result ∧ |rational result - target| ≤ error)
    (room : |target| ≤ largest) (small : error ≤ |target| + 1) :
    x.isFinite = true ∧ |value x - target| ≤ error := by
  have inside : |rational result| < 2 ^ (1024 : Int) := by
    have most : 2 * largest + 1 < 2 ^ (1024 : Int) := calc
      2 * largest + 1 < (2 ^ (256 : Int)) ^ (4 : Int) := by norm_num [largest]
      _ = 2 ^ (1024 : Int) := by
        rw [← zpow_mul]
        rfl
    have := abs_sub_abs_le_abs_sub (rational result) target
    linarith [near.2]
  rw [unpack_settled result near.1 inside] at packed
  constructor
  · change x.toModel.unpack.isFinite = true
    have settled := near.1
    rw [packed]
    cases result with
    | notANumber | infinity => exact settled.elim
    | zero | finite => rfl
  · rw [value, packed]
    exact near.2

theorem roundoff_le : roundoff ≤ 1 / 8 := by norm_num [roundoff]

theorem underflow_le : underflow ≤ 1 := by
  rw [underflow]
  exact zpow_le_one_of_nonpos₀ (by norm_num) (by norm_num)

theorem roundoff_mul_le (target : ℚ) : roundoff * |target| ≤ |target| :=
  mul_le_of_le_one_left (abs_nonneg _) (roundoff_le.trans (by norm_num))

section Doubles

variable (x y : Float) (left : x.isFinite = true) (right : y.isFinite = true)

include left right

theorem value_add (room : |value x + value y| ≤ largest) :
    (x + y).isFinite = true ∧
      |value (x + y) - (value x + value y)| ≤ roundoff * |value x + value y| :=
  value_of_pack _ _ _ _ rfl
    (add_near _ _ (settled_of_isFinite x left) (settled_of_isFinite y right)) room
    (by linarith [roundoff_mul_le (value x + value y)])

theorem value_sub (room : |value x - value y| ≤ largest) :
    (x - y).isFinite = true ∧
      |value (x - y) - (value x - value y)| ≤ roundoff * |value x - value y| :=
  value_of_pack _ _ _ _ rfl
    (sub_near _ _ (settled_of_isFinite x left) (settled_of_isFinite y right)) room
    (by linarith [roundoff_mul_le (value x - value y)])

theorem value_mul (room : |value x * value y| ≤ largest) :
    (x * y).isFinite = true ∧
      |value (x * y) - value x * value y| ≤ roundoff * |value x * value y| + underflow :=
  value_of_pack _ _ _ _ rfl
    (mul_near _ _ (settled_of_isFinite x left) (settled_of_isFinite y right)) room
    (by linarith [roundoff_mul_le (value x * value y), underflow_le])

end Doubles

theorem nonneg_iff (x : Float) (finite : x.isFinite = true) : 0 ≤ x ↔ 0 ≤ value x := by
  have number := number_of_isFinite x finite
  have zero : ordinal 0 = 0 := rfl
  rw [le_iff 0 x rfl number, zero, ordinal, ← unpack_eq_ofDouble, value]
  have settled := settled_of_isFinite x finite
  cases shape : x.toModel.unpack with
  | notANumber | infinity =>
    rw [shape] at settled
    exact settled.elim
  | zero side => exact iff_of_true le_rfl le_rfl
  | finite side mantissa exponent positive =>
    rw [shape] at settled
    have low := settled.2.1
    have value_pos : (0 : ℚ) < mantissa * 2 ^ exponent := by positivity
    cases side with
    | positive =>
      apply iff_of_true
      · change 0 ≤ (exponent + 1074) * 2 ^ 52 + (mantissa : Int)
        omega
      · simpa [rational, Sign.apply] using value_pos.le
    | negative =>
      apply iff_of_false
      · change ¬ 0 ≤ -((exponent + 1074) * 2 ^ 52 + (mantissa : Int))
        omega
      · simpa [rational, Sign.apply] using value_pos

end Cartograph.Number

import Cartograph.Proofs.Number.Rounding

/-! Differences of doubles. Rounding treats both signs alike, so a difference taken the other way
is as large, and zeros of both signs give the same. -/

namespace Cartograph.Number

open Float.Model Float.Model.UnpackedFloat

section Rounding

variable (side : Sign) (mantissa : Nat) (exponent : Int)

theorem roundWithAccuracy_neg (accuracy : Accuracy) :
    roundWithAccuracy .binary64 (-side) mantissa exponent accuracy =
      (roundWithAccuracy .binary64 side mantissa exponent accuracy).neg := by
  unfold roundWithAccuracy
  simp only
  split <;> rfl

theorem round_neg :
    UnpackedFloat.round .binary64 (-side) mantissa exponent =
      (UnpackedFloat.round .binary64 side mantissa exponent).neg :=
  roundWithAccuracy_neg _ _ _ _

end Rounding

theorem normalize_neg (total exponent : Int) (zeroSign : Sign) (some_total : total ≠ 0) :
    UnpackedFloat.normalize .binary64 (-total) exponent zeroSign =
      (UnpackedFloat.normalize .binary64 total exponent zeroSign).neg := by
  unfold UnpackedFloat.normalize
  rcases lt_or_gt_of_ne some_total with negative | positive
  · rw [compare_lt_iff_lt.mpr negative, compare_gt_iff_gt.mpr (by omega)]
    exact round_neg .negative _ _
  · rw [compare_gt_iff_gt.mpr positive, compare_lt_iff_lt.mpr (by omega), neg_neg]
    exact round_neg .positive _ _

theorem unpack_packComponents_neg (side : Sign) (exponent : BitVec Format.binary64.exponentBits)
    (mantissa : BitVec Format.binary64.mantissaBitsWithoutImplicit) :
    UnpackedFloat.unpack .binary64 (packComponents .binary64 (-side) exponent mantissa) =
      (UnpackedFloat.unpack .binary64 (packComponents .binary64 side exponent mantissa)).neg := by
  rw [unpack_packComponents, unpack_packComponents]
  split
  · split <;> rfl
  · split
    · split <;> rfl
    · rfl

theorem unpack_pack_neg (x : UnpackedFloat) :
    UnpackedFloat.unpack .binary64 (UnpackedFloat.pack .binary64 x.neg) =
      (UnpackedFloat.unpack .binary64 (UnpackedFloat.pack .binary64 x)).neg := by
  cases x with
  | notANumber => rfl
  | infinity side => exact unpack_packComponents_neg side _ _
  | zero side => exact unpack_packComponents_neg side _ _
  | finite side mantissa exponent positive =>
    simp only [UnpackedFloat.neg, UnpackedFloat.pack]
    split
    · exact unpack_packComponents_neg side _ _
    · split <;> exact unpack_packComponents_neg side _ _

theorem rung_neg (x : UnpackedFloat) : rung x.neg = -rung x := by
  have opposite (side : Sign) (magnitude : Int) :
      (-side).apply magnitude = -side.apply magnitude := by
    cases side with
    | positive => rfl
    | negative => exact (Int.neg_neg _).symm
  cases x with
  | notANumber | zero => rfl
  | infinity side => exact opposite side _
  | finite side mantissa exponent positive => exact opposite side _

theorem isNaN_unpack_packComponents (side : Sign)
    (exponent : BitVec Format.binary64.exponentBits)
    (mantissa : BitVec Format.binary64.mantissaBitsWithoutImplicit)
    (number : exponent ≠ -1#_ ∨ mantissa = 0#_) :
    (UnpackedFloat.unpack .binary64 (packComponents .binary64 side exponent mantissa)).isNaN =
      false := by
  rw [unpack_packComponents]
  split
  · next special =>
    rw [if_pos (number.resolve_left (· special))]
    rfl
  · split
    · split <;> rfl
    · rfl

theorem isNaN_unpack_pack (x : UnpackedFloat) (number : x.isNaN = false) :
    (UnpackedFloat.unpack .binary64 (UnpackedFloat.pack .binary64 x)).isNaN = false := by
  cases x with
  | notANumber => cases number
  | infinity side => exact isNaN_unpack_packComponents side _ _ (.inr rfl)
  | zero side => exact isNaN_unpack_packComponents side _ _ (.inr rfl)
  | finite side mantissa exponent positive =>
    obtain ⟨biased, biased_eq⟩ : ∃ biased : Nat, (exponent + Format.binary64.exponentBias +
        Format.binary64.mantissaBitsWithoutImplicit).toNat = biased := ⟨_, rfl⟩
    simp only [UnpackedFloat.pack, biased_eq]
    split
    · exact isNaN_unpack_packComponents side _ _ (.inr rfl)
    · next room =>
      have inside : BitVec.ofNat Format.binary64.exponentBits biased ≠ -1#_ := by
        rw [Ne, ← BitVec.toNat_inj]
        change biased % 2048 ≠ 2047
        change ¬ 2048 ≤ biased + 1 at room
        omega
      split
      · exact isNaN_unpack_packComponents side _ _ (.inl inside)
      · exact isNaN_unpack_packComponents side _ _ (.inl (by decide))

section Operands

variable (x y : UnpackedFloat) (left : Settled x) (right : Settled y)

include left right

theorem sub_swap :
    UnpackedFloat.sub .binary64 y x = (UnpackedFloat.sub .binary64 x y).neg ∨
      ∃ side other, UnpackedFloat.sub .binary64 x y = .zero side ∧
        UnpackedFloat.sub .binary64 y x = .zero other := by
  cases x with
  | notANumber | infinity => exact left.elim
  | zero side =>
    cases y with
    | notANumber | infinity => exact right.elim
    | zero other => cases side <;> cases other <;> exact .inr ⟨_, _, rfl, rfl⟩
    | finite other mantissa exponent positive => cases other <;> exact .inl rfl
  | finite side mantissa exponent positive =>
    cases y with
    | notANumber | infinity => exact right.elim
    | zero other => exact .inl rfl
    | finite side' mantissa' exponent' positive' =>
      obtain ⟨place, place_eq⟩ : ∃ place, min exponent exponent' = place := ⟨_, rfl⟩
      simp only [UnpackedFloat.sub, min_comm exponent' exponent, place_eq]
      generalize side.apply ((decreaseExponent mantissa exponent place).1 : Int) = first
      generalize side'.apply ((decreaseExponent mantissa' exponent' place).1 : Int) = second
      by_cases same : first = second
      · rw [same, Int.sub_self]
        exact .inr ⟨_, _, rfl, rfl⟩
      · left
        rw [← Int.neg_sub first second]
        exact normalize_neg _ _ _ (sub_ne_zero.mpr same)

theorem isNaN_sub : (UnpackedFloat.sub .binary64 x y).isNaN = false := by
  have settled := (sub_near x y left right).1
  cases shape : UnpackedFloat.sub .binary64 x y with
  | notANumber =>
    rw [shape] at settled
    exact settled.elim
  | infinity | zero | finite => rfl

end Operands

theorem ordinal_of_unpack (x y : Float) (result : UnpackedFloat)
    (difference : UnpackedFloat.sub .binary64 x.toModel.unpack y.toModel.unpack = result) :
    ordinal (x - y) =
      rung (UnpackedFloat.unpack .binary64 (UnpackedFloat.pack .binary64 result)) := by
  rw [ordinal, ← unpack_eq_ofDouble, ← difference]
  rfl

theorem eq_of_ordinal (x y : Float) (left : x.isNaN = false) (right : y.isNaN = false)
    (same : ordinal x = ordinal y) (some_count : ordinal x ≠ 0) : x = y := by
  have bits : x.toBits.toNat = y.toBits.toNat := by
    rw [ordinal_eq x left] at same some_count
    rw [ordinal_eq y right] at same
    split at same <;> split at same <;> split at some_count <;> omega
  rw [← Float.ofBits_toBits x, UInt64.toNat_inj.mp bits, Float.ofBits_toBits]

theorem unpack_of_ordinal (x : Float) (number : x.isNaN = false) (none : ordinal x = 0) :
    ∃ side, x.toModel.unpack = .zero side := by
  have canonical := canonical_of_number x number
  rw [ordinal] at none
  rw [unpack_eq_ofDouble]
  cases shape : (ofDouble x).unpacked with
  | notANumber =>
    rw [shape] at canonical
    exact canonical.elim
  | infinity side =>
    rw [shape] at none
    cases side <;> cases none
  | zero side => exact ⟨side, rfl⟩
  | finite side mantissa exponent positive =>
    rw [shape] at canonical none
    have bounds := rung_bounds mantissa exponent positive canonical
    cases side <;> simp only [rung, Sign.apply] at none <;> omega

section Doubles

variable (x y : Float) (left : x.isFinite = true) (right : y.isFinite = true)

include right

theorem ordinal_sub_congr (z : Float) (same : (x == z) = true) :
    ordinal (x - y) = ordinal (z - y) := by
  obtain ⟨x_number, z_number⟩ := numbers_of_beq x z same
  rw [beq_iff x z x_number z_number] at same
  by_cases none : ordinal x = 0
  · obtain ⟨side, zero⟩ := unpack_of_ordinal x x_number none
    obtain ⟨other, zero'⟩ := unpack_of_ordinal z z_number (same ▸ none)
    have settled := settled_of_isFinite y right
    rw [ordinal_of_unpack x y _ rfl, ordinal_of_unpack z y _ rfl, zero, zero']
    cases shape : y.toModel.unpack with
    | notANumber | infinity =>
      rw [shape] at settled
      exact settled.elim
    | zero sign => cases side <;> cases other <;> cases sign <;> rfl
    | finite => rfl
  · rw [eq_of_ordinal x z x_number z_number same none]

include left

theorem number_sub : (x - y).isNaN = false :=
  isNaN_unpack_pack _
    (isNaN_sub _ _ (settled_of_isFinite x left) (settled_of_isFinite y right))

theorem ordinal_sub_swap : ordinal (y - x) = -ordinal (x - y) := by
  rcases sub_swap _ _ (settled_of_isFinite x left) (settled_of_isFinite y right) with
    opposite | ⟨side, other, first, second⟩
  · rw [ordinal_of_unpack y x _ opposite, ordinal_of_unpack x y _ rfl, unpack_pack_neg, rung_neg]
  · rw [ordinal_of_unpack y x _ second, ordinal_of_unpack x y _ first]
    cases side <;> cases other <;> rfl

end Doubles

theorem ordinal_sub_eq_zero (x y : Float) (finite : y.isFinite = true)
    (same : (x == y) = true) : ordinal (x - y) = 0 := by
  have itself := ordinal_sub_swap y y finite finite
  rw [ordinal_sub_congr x y finite y same]
  omega

theorem unpack_neg (x : Float) : (-x).toModel.unpack = x.toModel.unpack.neg := by
  have kept : UnpackedFloat.unpack .binary64 (UnpackedFloat.pack .binary64 x.toModel.unpack) =
      x.toModel.unpack := by
    rw [unpack_eq_ofDouble]
    exact (congrArg (fun y : Float => y.toModel.unpack) (eq_pack x)).symm.trans
      (unpack_eq_ofDouble x)
  exact (unpack_pack_neg _).trans (congrArg UnpackedFloat.neg kept)

theorem ordinal_neg (x : Float) : ordinal (-x) = -ordinal x := by
  rw [ordinal, ordinal, ← unpack_eq_ofDouble, ← unpack_eq_ofDouble, unpack_neg, rung_neg]

theorem isNaN_neg (x : Float) : (-x).isNaN = x.isNaN := by
  change (-x).toModel.unpack.isNaN = x.toModel.unpack.isNaN
  rw [unpack_neg]
  cases x.toModel.unpack <;> rfl

end Cartograph.Number

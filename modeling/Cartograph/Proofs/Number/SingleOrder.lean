import Cartograph.Proofs.Number.Single

/-! The order of single-precision numbers. Finite numbers of any format compare as what they stand
for. So cutting numbers to bytes keeps their order, and the smaller of two numbers never gives the
larger byte, whatever takes part that is no number. -/

namespace Cartograph.Number

open Float.Model Float.Model.UnpackedFloat

section Formats

variable (format : Format)

section Sizes

variable {first second : Nat} {place other : Int}

theorem size_lt_of_exponent (small : first < 2 ^ format.mantissaBits)
    (low : format.minExponent ≤ place)
    (full : second < 2 ^ format.mantissaBitsWithoutImplicit → other = format.minExponent)
    (finer : place < other) : (first : ℚ) * 2 ^ place < second * 2 ^ other := by
  have wide : 2 ^ format.mantissaBitsWithoutImplicit ≤ second := by
    by_contra subnormal
    have := full (Nat.lt_of_not_le subnormal)
    omega
  have double : 2 ^ format.mantissaBits = 2 * 2 ^ format.mantissaBitsWithoutImplicit := by
    rw [Format.mantissaBits, Nat.add_comm, Nat.pow_succ, Nat.mul_comm]
  have more : first < 2 * second := by omega
  calc (first : ℚ) * 2 ^ place < (2 * second : Nat) * 2 ^ place := by
        apply mul_lt_mul_of_pos_right _ (by positivity)
        exact_mod_cast more
    _ = second * 2 ^ (place + 1) := by
      rw [zpow_add₀ two_ne_zero]
      push_cast
      ring
    _ ≤ second * 2 ^ other := by
      gcongr
      · exact one_le_two
      · exact finer

theorem compare_sizes
    (left : first < 2 ^ format.mantissaBits ∧ format.minExponent ≤ place ∧
      (first < 2 ^ format.mantissaBitsWithoutImplicit → place = format.minExponent))
    (right : second < 2 ^ format.mantissaBits ∧ format.minExponent ≤ other ∧
      (second < 2 ^ format.mantissaBitsWithoutImplicit → other = format.minExponent)) :
    (compare place other).then (compare first second) =
      compare ((first : ℚ) * 2 ^ place) (second * 2 ^ other) := by
  rcases lt_trichotomy place other with finer | rfl | coarser
  · have less := size_lt_of_exponent format left.1 left.2.1 right.2.2 finer
    rw [compare_lt_iff_lt.mpr finer, compare_lt_iff_lt.mpr less]
    rfl
  · have unit_pos : (0 : ℚ) < 2 ^ place := by positivity
    rw [compare_eq_iff_eq.mpr rfl, Ordering.eq_then]
    rcases lt_trichotomy first second with fewer | rfl | more
    · have less : (first : ℚ) * 2 ^ place < second * 2 ^ place :=
        mul_lt_mul_of_pos_right (by exact_mod_cast fewer) unit_pos
      rw [compare_lt_iff_lt.mpr fewer, compare_lt_iff_lt.mpr less]
    · rw [compare_eq_iff_eq.mpr rfl, compare_eq_iff_eq.mpr rfl]
    · have less : (second : ℚ) * 2 ^ place < first * 2 ^ place :=
        mul_lt_mul_of_pos_right (by exact_mod_cast more) unit_pos
      rw [compare_gt_iff_gt.mpr more, compare_gt_iff_gt.mpr less]
  · have less := size_lt_of_exponent format right.1 right.2.1 left.2.2 coarser
    rw [compare_gt_iff_gt.mpr coarser, compare_gt_iff_gt.mpr less]
    rfl

end Sizes

theorem compare_neg (x y : ℚ) : compare (-x) (-y) = (compare x y).swap := by
  rcases lt_trichotomy x y with less | rfl | more
  · rw [compare_lt_iff_lt.mpr less]
    exact compare_gt_iff_gt.mpr (neg_lt_neg less)
  · rw [compare_eq_iff_eq.mpr rfl, compare_eq_iff_eq.mpr rfl]
    rfl
  · rw [compare_gt_iff_gt.mpr more]
    exact compare_lt_iff_lt.mpr (neg_lt_neg more)

theorem compare_rational (x y : UnpackedFloat) (left : SettledIn format x)
    (right : SettledIn format y) : x.compare y = some (compare (rational x) (rational y)) := by
  have above (mantissa : Nat) (exponent : Int) (positive : 0 < mantissa) :
      (0 : ℚ) < mantissa * 2 ^ exponent := by positivity
  cases x with
  | notANumber | infinity => exact left.elim
  | zero side =>
    cases y with
    | notANumber | infinity => exact right.elim
    | zero other => exact congrArg some (compare_eq_iff_eq.mpr rfl).symm
    | finite other mantissa exponent positive =>
      have size := above mantissa exponent positive
      cases other with
      | positive =>
        exact congrArg some (compare_lt_iff_lt.mpr (by simpa [rational, Sign.apply])).symm
      | negative =>
        exact congrArg some (compare_gt_iff_gt.mpr (by simpa [rational, Sign.apply])).symm
  | finite side mantissa exponent positive =>
    have size := above mantissa exponent positive
    cases y with
    | notANumber | infinity => exact right.elim
    | zero other =>
      cases side with
      | positive =>
        exact congrArg some (compare_gt_iff_gt.mpr (by simpa [rational, Sign.apply])).symm
      | negative =>
        exact congrArg some (compare_lt_iff_lt.mpr (by simpa [rational, Sign.apply])).symm
    | finite other mantissa' exponent' positive' =>
      have size' := above mantissa' exponent' positive'
      have sizes := compare_sizes format left right
      cases side with
      | positive =>
        cases other with
        | positive => exact congrArg some sizes
        | negative =>
          refine congrArg some (compare_gt_iff_gt.mpr ?_).symm
          simp only [rational, Sign.apply]
          push_cast
          linarith
      | negative =>
        cases other with
        | positive =>
          refine congrArg some (compare_lt_iff_lt.mpr ?_).symm
          simp only [rational, Sign.apply]
          push_cast
          linarith
        | negative =>
          have turned := (congrArg Ordering.swap sizes).trans (compare_neg _ _).symm
          simp only [rational, Sign.apply]
          push_cast
          rw [neg_mul, neg_mul]
          exact congrArg some turned

end Formats

section Singles

variable (x y : Float32)

theorem single_lt_iff (left : x.isFinite = true) (right : y.isFinite = true) :
    x < y ↔ singleValue x < singleValue y := by
  change decide ((x.toModel.unpack.compare y.toModel.unpack == some .lt) = true) = true ↔ _
  rw [compare_rational .binary32 _ _ (settled_of_single x left) (settled_of_single y right),
    decide_eq_true_iff, beq_iff_eq, Option.some.injEq]
  exact compare_lt_iff_lt

theorem single_le_iff (left : x.isFinite = true) (right : y.isFinite = true) :
    x ≤ y ↔ singleValue x ≤ singleValue y := by
  change decide ((x.toModel.unpack.compare y.toModel.unpack).any (·.isLE) = true) = true ↔ _
  rw [compare_rational .binary32 _ _ (settled_of_single x left) (settled_of_single y right),
    decide_eq_true_iff, Option.any_some, Ordering.isLE_iff_ne_gt]
  exact compare_le_iff_le

theorem finite_of_unit (above : 0 ≤ x) (below : x ≤ 1) :
    x.isFinite = true ∧ 0 ≤ singleValue x ∧ singleValue x ≤ 1 := by
  have finite : x.isFinite = true := by
    change decide (((0 : Float32).toModel.unpack.compare x.toModel.unpack).any (·.isLE) = true) =
      true at above
    change decide ((x.toModel.unpack.compare (1 : Float32).toModel.unpack).any (·.isLE) = true) =
      true at below
    change x.toModel.unpack.isFinite = true
    cases parts : x.toModel.unpack with
    | notANumber =>
      rw [parts] at below
      cases below
    | infinity side =>
      rw [parts] at above below
      cases side with
      | positive => cases below
      | negative => cases above
    | zero | finite => rfl
  rw [single_le_iff 0 x rfl finite, singleValue_zero] at above
  rw [single_le_iff x 1 finite rfl, singleValue_one] at below
  exact ⟨finite, above, below⟩

theorem cut_mono {first second : ℚ} (order : first ≤ second) : cut first ≤ cut second := by
  unfold cut
  split
  · next nonneg =>
    rw [if_pos (nonneg.trans order)]
    exact Int.floor_le_floor order
  · next negative =>
    split
    · next nonneg =>
      have ceil : ⌈first⌉ ≤ 0 := Int.ceil_le.mpr (by exact_mod_cast (lt_of_not_ge negative).le)
      exact ceil.trans (Int.floor_nonneg.mpr nonneg)
    · exact Int.ceil_le_ceil order

theorem unpack_eq_ofSingle : x.toModel.unpack = (ofSingle x).unpacked :=
  unpack_eq_decode .binary32 x.toBits.toBitVec

theorem singleToByte_eq (finite : x.isFinite = true) :
    (singleToByte x : Int) = max 0 (min 255 (cut (singleValue x))) := by
  change x.toModel.unpack.isFinite = true at finite
  rw [singleValue, singleToByte]
  rw [unpack_eq_ofSingle] at finite ⊢
  cases parts : ofSingle x with
  | notANumber | infinite =>
    rw [parts] at finite
    cases finite
  | finite negative mantissa exponent =>
    rw [rational_unpacked, cut_apply _ _ (by positivity), ← apply_towardZero]
    cases negative with
    | false => exact Int.toNat_of_nonneg (le_max_left _ _)
    | true => exact Int.toNat_of_nonneg (le_max_left _ _)

theorem singleToByte_infinite (negative : Bool) (parts : ofSingle x = .infinite negative) :
    singleToByte x = if negative then 0 else 255 := by
  rw [singleToByte, parts]
  cases negative <;> rfl

theorem infinite_of_number (number : x.isNaN = false) (special : ¬ x.isFinite = true) :
    ∃ negative, ofSingle x = .infinite negative := by
  change x.toModel.unpack.isNaN = false at number
  change ¬ x.toModel.unpack.isFinite = true at special
  rw [unpack_eq_ofSingle] at number special
  cases parts : ofSingle x with
  | notANumber =>
    rw [parts] at number
    cases number
  | infinite negative => exact ⟨negative, rfl⟩
  | finite negative mantissa exponent =>
    rw [parts, Binary.unpacked] at special
    split at special <;> exact absurd rfl special

theorem lt_iff_compare : x < y ↔
    (ofSingle x).unpacked.compare (ofSingle y).unpacked = some .lt := by
  change decide ((x.toModel.unpack.compare y.toModel.unpack == some .lt) = true) = true ↔ _
  rw [unpack_eq_ofSingle, unpack_eq_ofSingle, decide_eq_true_iff, beq_iff_eq]

theorem beside_infinite (negative : Bool) (parts : ofSingle x = .infinite negative)
    (number : y.isNaN = false) (other : ofSingle y ≠ .infinite negative) :
    if negative then x < y else y < x := by
  change y.toModel.unpack.isNaN = false at number
  rw [unpack_eq_ofSingle] at number
  rw [lt_iff_compare, lt_iff_compare, parts]
  cases found : ofSingle y with
  | notANumber =>
    rw [found] at number
    cases number
  | infinite side =>
    rw [found] at other
    cases negative <;> cases side
    · exact absurd rfl other
    · rfl
    · rfl
    · exact absurd rfl other
  | finite side mantissa exponent =>
    rcases Nat.eq_zero_or_pos mantissa with rfl | positive
    · cases negative <;> cases side <;> rfl
    · rw [unpacked_finite side mantissa exponent positive]
      cases negative <;> cases side <;> rfl

theorem singleToByte_mono (left : x.isNaN = false) (right : y.isNaN = false) (order : ¬ y < x) :
    singleToByte x ≤ singleToByte y := by
  by_cases x_finite : x.isFinite = true
  · have x_byte := singleToByte_eq x x_finite
    by_cases y_finite : y.isFinite = true
    · rw [single_lt_iff y x y_finite x_finite, not_lt] at order
      have cuts := cut_mono order
      have y_byte := singleToByte_eq y y_finite
      omega
    · obtain ⟨negative, parts⟩ := infinite_of_number y right y_finite
      cases negative with
      | false =>
        rw [singleToByte_infinite y false parts]
        simp only [Bool.false_eq_true, if_false]
        omega
      | true =>
        refine absurd (beside_infinite y x true parts left fun same => ?_) order
        change x.toModel.unpack.isFinite = true at x_finite
        rw [unpack_eq_ofSingle, same] at x_finite
        cases x_finite
  · obtain ⟨negative, parts⟩ := infinite_of_number x left x_finite
    cases negative with
    | true =>
      rw [singleToByte_infinite x true parts]
      exact Nat.zero_le _
    | false =>
      by_cases same : ofSingle y = .infinite false
      · rw [singleToByte_infinite x false parts, singleToByte_infinite y false same]
      · exact absurd (beside_infinite x y false parts right same) order

theorem number_of_beq (itself : (x == x) = true) : x.isNaN = false := by
  change (x.toModel.unpack.compare x.toModel.unpack == some .eq) = true at itself
  change x.toModel.unpack.isNaN = false
  cases parts : x.toModel.unpack with
  | notANumber =>
    rw [parts] at itself
    cases itself
  | infinity | zero | finite => rfl

/-- The smaller of two numbers is a number if the second one is, and never gives a larger byte than
this one. -/
theorem singleToByte_least_le (number : y.isNaN = false) :
    (least x y).isNaN = false ∧ singleToByte (least x y) ≤ singleToByte y := by
  unfold least
  split
  · next itself =>
    have x_number : x.isNaN = false := number_of_beq x itself
    split
    · exact ⟨number, le_rfl⟩
    · next order => exact ⟨x_number, singleToByte_mono x y x_number number order⟩
  · exact ⟨number, le_rfl⟩

end Singles

end Cartograph.Number

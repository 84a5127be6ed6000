import Cartograph.Proofs.Number.Nearest

/-! Rounding in any binary format. A result is off by half the place of its last bit at most, which
is a small part of a number with all its bits and half the last place of all where it is smaller
than normal numbers. So sums, differences, products and quotients are near the exact results. -/

namespace Cartograph.Number

open Float.Model Float.Model.UnpackedFloat

theorem nearestWhole_le (count unit : Nat) : nearestWhole count unit ≤ count / unit + 1 := by
  unfold nearestWhole
  split
  · exact Nat.le_succ _
  · split
    · exact le_rfl
    · omega

theorem nearestWhole_near (count unit : Nat) (positive : 0 < unit) :
    2 * (nearestWhole count unit * unit) ≤ 2 * count + unit ∧
      2 * count ≤ 2 * (nearestWhole count unit * unit) + unit := by
  have split := Nat.div_add_mod' count unit
  have rest := Nat.mod_lt count positive
  have next : (count / unit + 1) * unit = count / unit * unit + unit := Nat.succ_mul _ _
  unfold nearestWhole
  split
  · omega
  · split
    · omega
    · rcases Nat.mod_two_eq_zero_or_one (count / unit) with even | odd
      · rw [even, Nat.add_zero]
        omega
      · rw [odd]
        omega

theorem nearestWhole_one (count : Nat) : nearestWhole count 1 = count := by
  simp [nearestWhole, Nat.mod_one]

theorem accuracy_whole : accuracyOfFraction 0 1 = .exact := rfl

theorem log2_le_of_lt (mantissa bits : Nat) (small : mantissa < 2 ^ (bits + 1)) :
    mantissa.log2 ≤ bits := by
  rcases Nat.eq_zero_or_pos mantissa with rfl | positive
  · exact Nat.zero_le bits
  · exact Nat.le_of_lt_succ ((Nat.log2_lt positive.ne').mpr small)

theorem log2_shiftLeft (count amount : Nat) (positive : 0 < count) :
    (count <<< amount).log2 = count.log2 + amount := by
  induction amount with
  | zero => rfl
  | succ amount shifted =>
    have nonzero : count <<< amount ≠ 0 := (Nat.shiftLeft_pos_iff.mpr positive).ne'
    rw [Nat.shiftLeft_succ, Nat.log2_two_mul nonzero, shifted, Nat.add_assoc]

theorem log2_le_quotient (count unit : Nat) (positive : 0 < unit) :
    count.log2 ≤ (count / unit).log2 + unit.log2 + 1 := by
  rcases Nat.eq_zero_or_pos count with zero | count_pos
  · rw [zero, Nat.log2_zero]
    exact Nat.zero_le _
  · have below : count < (count / unit + 1) * unit := Nat.lt_mul_of_div_lt (by omega) positive
    have quotient : count / unit + 1 ≤ 2 ^ ((count / unit).log2 + 1) := Nat.lt_log2_self
    have divisor : unit ≤ 2 ^ (unit.log2 + 1) := Nat.lt_log2_self.le
    have product : count < 2 ^ ((count / unit).log2 + unit.log2 + 2) := calc
      count < (count / unit + 1) * unit := below
      _ ≤ 2 ^ ((count / unit).log2 + 1) * 2 ^ (unit.log2 + 1) := Nat.mul_le_mul quotient divisor
      _ = 2 ^ ((count / unit).log2 + unit.log2 + 2) := by ring
    have := (Nat.log2_lt count_pos.ne').mpr product
    omega

/-- What a number stands for, and zero for what is no finite number. -/
def rational : UnpackedFloat → ℚ
  | .finite side mantissa exponent _ => (side.apply (mantissa : Int) : Int) * 2 ^ exponent
  | _ => 0

theorem apply_mul (side : Sign) (count : Nat) (place : ℚ) :
    ((side.apply (count : Int) : Int) : ℚ) * place =
      ((side.apply 1 : Int) : ℚ) * (count * place) := by
  cases side <;> simp [Sign.apply]

theorem abs_apply_mul (side : Sign) (value : ℚ) :
    |((side.apply 1 : Int) : ℚ) * value| = |value| := by
  cases side <;> simp [Sign.apply]

theorem apply_mul_apply (side other : Sign) (count more : Nat) :
    (side * other).apply ((count * more : Nat) : Int) = side.apply count * other.apply more := by
  have product : ((count * more : Nat) : Int) = count * more := Int.natCast_mul count more
  cases side with
  | positive =>
    cases other with
    | positive => exact product
    | negative => exact (congrArg Neg.neg product).trans (Int.mul_neg _ _).symm
  | negative =>
    cases other with
    | positive => exact (congrArg Neg.neg product).trans (Int.neg_mul _ _).symm
    | negative => exact product.trans (Int.neg_mul_neg _ _).symm

theorem apply_one_div (side other : Sign) : (((side / other).apply 1 : Int) : ℚ) =
    (side.apply 1 : Int) / (other.apply 1 : Int) := by
  have signs : (side / other).apply (1 : Int) = side.apply 1 * other.apply 1 := by
    cases side <;> cases other <;> rfl
  rw [signs]
  cases other <;> simp [Sign.apply, div_neg]

theorem apply_shift (side : Sign) (mantissa steps : Nat) (place : Int) :
    ((side.apply (mantissa : Int) : Int) : ℚ) * 2 ^ (place + steps) =
      ((side.apply ((mantissa * 2 ^ steps : Nat) : Int) : Int) : ℚ) * 2 ^ place := by
  rw [apply_mul, apply_mul, zpow_add₀ (by norm_num), zpow_natCast]
  push_cast
  ring

theorem rational_unpacked (negative : Bool) (mantissa : Nat) (exponent : Int) :
    rational (Binary.finite negative mantissa exponent).unpacked =
      ((sign negative).apply 1 : Int) * (mantissa * 2 ^ exponent) := by
  rw [Binary.unpacked]
  split
  · exact apply_mul _ _ _
  · next nothing =>
    obtain rfl : mantissa = 0 := by omega
    simp [rational]

section Formats

variable (format : Format)

/-- A zero, or a number as it is stored but for the largest exponent. -/
def SettledIn : UnpackedFloat → Prop
  | .notANumber => False
  | .infinity _ => False
  | .zero _ => True
  | .finite _ mantissa exponent _ =>
    mantissa < 2 ^ format.mantissaBits ∧ format.minExponent ≤ exponent ∧
      (mantissa < 2 ^ format.mantissaBitsWithoutImplicit → exponent = format.minExponent)

/-- The part of a result that rounding can change it by. -/
@[irreducible] def roundoffIn : ℚ := 2 ^ (-(format.mantissaBits : Int))

/-- Half the place of the last bit of the smallest numbers. -/
@[irreducible] def underflowIn : ℚ := 2 ^ (format.minExponent - 1)

theorem roundoffIn_pos : 0 < roundoffIn format := by unfold roundoffIn; positivity

theorem underflowIn_pos : 0 < underflowIn format := by unfold underflowIn; positivity

theorem minExponent_nonpos : format.minExponent ≤ 0 := by
  have some_bits := format.hm
  have one_le : (1 : Int) ≤ 2 ^ (format.exponentBits - 1) := by
    exact_mod_cast Nat.one_le_two_pow
  rw [Format.minExponent, Format.mantissaBits]
  push_cast
  omega

theorem targetExponent_in (mantissa : Nat) (exponent : Int) :
    format.targetExponent (totalExponent mantissa exponent) =
      max (mantissa.log2 + 1 + exponent - format.mantissaBits) format.minExponent := rfl

section Fraction

variable (side : Sign) (count unit : Nat) (exponent : Int) (unit_pos : 0 < unit)

include unit_pos

theorem shiftToTargetExponent_in :
    ∃ steps : Nat, (count / unit).log2 < format.mantissaBits + steps ∧
      exponent + steps = max exponent
        (max ((count / unit).log2 + 1 + exponent - format.mantissaBits) format.minExponent) ∧
      shiftToTargetExponent format (count / unit) exponent
          (accuracyOfFraction (count % unit) unit) =
        (extended count (unit * 2 ^ steps), exponent + steps) := by
  refine ⟨(max ((count / unit).log2 + 1 + exponent - format.mantissaBits) format.minExponent -
    exponent).toNat, by omega, by omega, ?_⟩
  rw [shiftToTargetExponent, targetExponent_in, shiftToExponent,
    ofMantissaAndAccuracy_eq count unit unit_pos, shiftRight_extended count unit _ unit_pos]

theorem roundWithAccuracy_in :
    ∃ steps : Nat, (count / unit).log2 < format.mantissaBits + steps ∧
      exponent + steps = max exponent
        (max ((count / unit).log2 + 1 + exponent - format.mantissaBits) format.minExponent) ∧
      ∃ more : Nat,
        more = (if nearestWhole count (unit * 2 ^ steps) < 2 ^ format.mantissaBits then 0 else 1) ∧
        nearestWhole count (unit * 2 ^ steps) ≤ 2 ^ format.mantissaBits ∧
        roundWithAccuracy format side (count / unit) exponent
            (accuracyOfFraction (count % unit) unit) =
          if whole : nearestWhole count (unit * 2 ^ steps) / 2 ^ more = 0 then .zero side
          else .finite side (nearestWhole count (unit * 2 ^ steps) / 2 ^ more)
            (exponent + steps + more) (Nat.pos_of_ne_zero whole) := by
  have bits_eq : format.mantissaBits = format.mantissaBitsWithoutImplicit + 1 := Nat.add_comm 1 _
  obtain ⟨steps, short, place_eq, first⟩ :=
    shiftToTargetExponent_in format count unit exponent unit_pos
  have rounded_eq := roundedMantissa_extended count (unit * 2 ^ steps) (by positivity)
  have most : nearestWhole count (unit * 2 ^ steps) ≤ 2 ^ format.mantissaBits := by
    have whole : count / (unit * 2 ^ steps) < 2 ^ format.mantissaBits := by
      rw [← Nat.div_div_eq_div_mul, Nat.div_lt_iff_lt_mul (by positivity), ← Nat.pow_add]
      exact Nat.lt_log2_self.trans_le (Nat.pow_le_pow_right (by decide) short)
    exact (nearestWhole_le count (unit * 2 ^ steps)).trans whole
  obtain ⟨more, -, last_eq, second⟩ :=
    shiftToTargetExponent_in format (nearestWhole count (unit * 2 ^ steps)) 1 (exponent + steps)
      Nat.one_pos
  rw [Nat.div_one] at last_eq
  simp only [Nat.div_one, Nat.mod_one, Nat.one_mul, accuracy_whole] at second
  refine ⟨steps, short, place_eq, more, ?_, most, ?_⟩
  · by_cases small : nearestWhole count (unit * 2 ^ steps) < 2 ^ format.mantissaBits
    · rw [if_pos small]
      rw [bits_eq] at small
      have bits := log2_le_of_lt _ _ small
      omega
    · have full : nearestWhole count (unit * 2 ^ steps) = 2 ^ format.mantissaBits := by omega
      rw [if_neg small]
      rw [full, Nat.log2_two_pow] at last_eq
      omega
  · rw [roundWithAccuracy, first]
    simp only [rounded_eq, second]
    rfl

theorem rational_roundWithAccuracy_in :
    ∃ steps : Nat,
      exponent + steps = max exponent
        (max ((count / unit).log2 + 1 + exponent - format.mantissaBits) format.minExponent) ∧
      rational (roundWithAccuracy format side (count / unit) exponent
          (accuracyOfFraction (count % unit) unit)) =
        (side.apply 1 : Int) *
          (nearestWhole count (unit * 2 ^ steps) * 2 ^ (exponent + steps)) := by
  obtain ⟨steps, -, place_eq, more, more_eq, most, result⟩ :=
    roundWithAccuracy_in format side count unit exponent unit_pos
  have twice := two_pow_mantissaBits format
  refine ⟨steps, place_eq, ?_⟩
  have whole : nearestWhole count (unit * 2 ^ steps) / 2 ^ more * 2 ^ more =
      nearestWhole count (unit * 2 ^ steps) := by
    split at more_eq <;> subst more_eq <;> omega
  have moved : ((nearestWhole count (unit * 2 ^ steps) / 2 ^ more : Nat) : ℚ) *
      2 ^ (exponent + steps + more) =
        nearestWhole count (unit * 2 ^ steps) * 2 ^ (exponent + steps) := by
    rw [zpow_add₀ (by norm_num) _ (more : Int), zpow_natCast, mul_comm ((2 : ℚ) ^ _), ← mul_assoc]
    exact_mod_cast congrArg (fun whole : Nat => (whole : ℚ) * 2 ^ (exponent + steps)) whole
  rw [result, ← moved, ← apply_mul]
  split
  · next none_left =>
    rw [none_left]
    cases side <;> simp [rational, Sign.apply]
  · rfl

theorem le_nearestWhole (steps : Nat)
    (bits : format.mantissaBitsWithoutImplicit + steps ≤ (count / unit).log2) :
    2 ^ format.mantissaBitsWithoutImplicit ≤ nearestWhole count (unit * 2 ^ steps) := by
  have place_pos : 0 < unit * 2 ^ steps := by positivity
  have near := (nearestWhole_near count (unit * 2 ^ steps) place_pos).2
  have kept : 2 ^ format.mantissaBitsWithoutImplicit * (unit * 2 ^ steps) ≤ count := by
    have some_bits := format.hm
    have whole : 2 ^ (format.mantissaBitsWithoutImplicit + steps) ≤ count / unit :=
      (Nat.le_log2 (by intro none_left; rw [none_left, Nat.log2_zero] at bits; omega)).mp bits
    rw [Nat.le_div_iff_mul_le unit_pos, Nat.pow_add] at whole
    linarith
  apply Nat.le_of_lt_succ
  apply Nat.lt_of_mul_lt_mul_right (a := unit * 2 ^ steps)
  rw [Nat.succ_mul]
  omega

theorem settled_roundWithAccuracy_in
    (fine : exponent ≤
      max ((count / unit).log2 + 1 + exponent - format.mantissaBits) format.minExponent) :
    SettledIn format (roundWithAccuracy format side (count / unit) exponent
      (accuracyOfFraction (count % unit) unit)) := by
  obtain ⟨steps, short, place_eq, more, more_eq, most, result⟩ :=
    roundWithAccuracy_in format side count unit exponent unit_pos
  have bits_eq : format.mantissaBits = format.mantissaBitsWithoutImplicit + 1 := Nat.add_comm 1 _
  have twice := two_pow_mantissaBits format
  have normal (above : format.minExponent < exponent + steps) :=
    le_nearestWhole format count unit unit_pos steps (by omega)
  rw [result]
  split
  · trivial
  · refine ⟨?_, by omega, fun subnormal => ?_⟩
    · split at more_eq <;> subst more_eq <;> omega
    · split at more_eq <;> subst more_eq
      · by_contra above
        have := normal (by omega)
        omega
      · omega

theorem nearestWhole_half (steps : Nat) :
    |(nearestWhole count (unit * 2 ^ steps) : ℚ) * 2 ^ (exponent + steps) -
      count / unit * 2 ^ exponent| ≤ 2 ^ steps / 2 * 2 ^ exponent := by
  have unit_cast : (0 : ℚ) < unit := by exact_mod_cast unit_pos
  have place_pos : (0 : ℚ) < 2 ^ exponent := by positivity
  have near := nearestWhole_near count (unit * 2 ^ steps) (by positivity)
  have above : (2 : ℚ) * (nearestWhole count (unit * 2 ^ steps) * (unit * 2 ^ steps)) ≤
      2 * count + unit * 2 ^ steps := by exact_mod_cast near.1
  have below : (2 : ℚ) * count ≤
      2 * (nearestWhole count (unit * 2 ^ steps) * (unit * 2 ^ steps)) + unit * 2 ^ steps := by
    exact_mod_cast near.2
  have part : (count : ℚ) / unit * unit = count := div_mul_cancel₀ _ unit_cast.ne'
  rw [zpow_add₀ (by norm_num), zpow_natCast, mul_comm ((2 : ℚ) ^ exponent), ← mul_assoc,
    ← sub_mul, abs_mul, abs_of_pos place_pos]
  apply mul_le_mul_of_nonneg_right _ place_pos.le
  rw [abs_le]
  constructor <;> apply le_of_mul_le_mul_right _ unit_cast <;> linarith

omit unit_pos in
theorem half_place_le (steps : Nat)
    (bits : steps + format.mantissaBits = (count / unit).log2 + 1) :
    (2 : ℚ) ^ steps / 2 ≤ roundoffIn format * (count / unit) := by
  have some_bits : 0 < (count / unit).log2 := by
    have := format.hm
    rw [Format.mantissaBits] at bits
    omega
  have whole : 2 ^ (steps + format.mantissaBits) ≤ 2 * (count / unit) := by
    rw [bits, Nat.pow_succ, Nat.mul_comm]
    exact Nat.mul_le_mul_left 2
      (Nat.log2_self_le (by intro none_left; simp [none_left] at some_bits))
  have kept : (2 : ℚ) ^ (steps + format.mantissaBits) ≤ 2 * (count / unit) := calc
    (2 : ℚ) ^ (steps + format.mantissaBits) ≤ 2 * ((count / unit : Nat) : ℚ) := by
      exact_mod_cast whole
    _ ≤ 2 * (count / unit) := mul_le_mul_of_nonneg_left Nat.cast_div_le (by norm_num)
  rw [roundoffIn, zpow_neg, zpow_natCast, inv_mul_eq_div, div_le_div_iff₀ (by norm_num)
    (by positivity), ← pow_add]
  linarith

theorem nearestWhole_error_in (steps : Nat)
    (place_eq : exponent + steps =
      max ((count / unit).log2 + 1 + exponent - format.mantissaBits) format.minExponent) :
    |(nearestWhole count (unit * 2 ^ steps) : ℚ) * 2 ^ (exponent + steps) -
        count / unit * 2 ^ exponent| ≤
      roundoffIn format * (count / unit * 2 ^ exponent) +
        if unit = 1 ∧ format.minExponent ≤ exponent then 0 else underflowIn format := by
  have value_nonneg : 0 ≤ roundoffIn format * (count / unit * 2 ^ exponent) :=
    mul_nonneg (roundoffIn_pos format).le (by positivity)
  have error := nearestWhole_half count unit exponent unit_pos steps
  by_cases normal : format.minExponent < exponent + steps
  · have part := half_place_le format count unit steps (by omega)
    have relative := error.trans
      (mul_le_mul_of_nonneg_right part (by positivity : (0 : ℚ) ≤ 2 ^ exponent))
    rw [mul_assoc] at relative
    apply le_add_of_le_of_nonneg relative
    split
    · exact le_rfl
    · exact (underflowIn_pos format).le
  · have last : exponent + steps = format.minExponent := by omega
    by_cases whole : unit = 1 ∧ format.minExponent ≤ exponent
    · obtain ⟨rfl, low⟩ := whole
      obtain rfl : steps = 0 := by omega
      rw [Nat.pow_zero, Nat.mul_one, nearestWhole_one, Nat.cast_zero, add_zero, Nat.cast_one,
        div_one, sub_self, abs_zero, if_pos ⟨rfl, low⟩, add_zero]
      rwa [Nat.cast_one, div_one] at value_nonneg
    · have small : (2 : ℚ) ^ steps / 2 * 2 ^ exponent = underflowIn format := by
        rw [underflowIn, ← last, zpow_sub_one₀ (by norm_num), zpow_add₀ (by norm_num),
          zpow_natCast]
        ring
      rw [if_neg whole]
      rw [small] at error
      linarith

theorem near_roundWithAccuracy
    (fine : exponent ≤
      max ((count / unit).log2 + 1 + exponent - format.mantissaBits) format.minExponent) :
    SettledIn format (roundWithAccuracy format side (count / unit) exponent
        (accuracyOfFraction (count % unit) unit)) ∧
      |rational (roundWithAccuracy format side (count / unit) exponent
          (accuracyOfFraction (count % unit) unit)) -
            (side.apply 1 : Int) * (count / unit * 2 ^ exponent)| ≤
        roundoffIn format * (count / unit * 2 ^ exponent) +
          if unit = 1 ∧ format.minExponent ≤ exponent then 0 else underflowIn format := by
  refine ⟨settled_roundWithAccuracy_in format side count unit exponent unit_pos fine, ?_⟩
  obtain ⟨steps, place_eq, value⟩ :=
    rational_roundWithAccuracy_in format side count unit exponent unit_pos
  rw [value, ← mul_sub, abs_apply_mul]
  exact nearestWhole_error_in format count unit exponent unit_pos steps (by omega)

end Fraction

section Whole

variable (side : Sign) (mantissa : Nat) (exponent : Int)

theorem near_roundWithAccuracy_exact
    (fine : exponent ≤
      max (mantissa.log2 + 1 + exponent - format.mantissaBits) format.minExponent) :
    SettledIn format (roundWithAccuracy format side mantissa exponent .exact) ∧
      |rational (roundWithAccuracy format side mantissa exponent .exact) -
            (side.apply (mantissa : Int) : Int) * 2 ^ exponent| ≤
        roundoffIn format * (mantissa * 2 ^ exponent) +
          if format.minExponent ≤ exponent then 0 else underflowIn format := by
  have whole := near_roundWithAccuracy format side mantissa 1 exponent Nat.one_pos
  simp only [Nat.div_one, Nat.mod_one, accuracy_whole, Nat.cast_one, div_one, true_and] at whole
  rw [apply_mul]
  exact whole fine

theorem decreaseExponent_eq (target : Int) :
    ∃ steps : Nat, (exponent - target).toNat = steps ∧
      decreaseExponent mantissa exponent target = (mantissa * 2 ^ steps, exponent - steps) :=
  ⟨_, rfl, by rw [decreaseExponent, Nat.shiftLeft_eq]⟩

/-- Bits are added below a short mantissa before it is rounded, so none is lost. -/
theorem round_in (positive : 0 < mantissa) :
    ∃ steps : Nat,
      exponent - steps = min exponent
        (max (mantissa.log2 + 1 + exponent - format.mantissaBits) format.minExponent) ∧
      exponent - steps ≤ max ((mantissa * 2 ^ steps).log2 + 1 + (exponent - steps) -
        format.mantissaBits) format.minExponent ∧
      ((mantissa * 2 ^ steps : Nat) : ℚ) * 2 ^ (exponent - steps) = mantissa * 2 ^ exponent ∧
      UnpackedFloat.round format side mantissa exponent =
        roundWithAccuracy format side (mantissa * 2 ^ steps) (exponent - steps) .exact := by
  obtain ⟨steps, steps_eq, moved⟩ := decreaseExponent_eq mantissa exponent
    (format.targetExponent (totalExponent mantissa exponent))
  rw [targetExponent_in] at steps_eq
  have bits : (mantissa * 2 ^ steps).log2 = mantissa.log2 + steps := by
    rw [← Nat.shiftLeft_eq, log2_shiftLeft mantissa steps positive]
  have same : ((mantissa * 2 ^ steps : Nat) : ℚ) * 2 ^ (exponent - steps) =
      mantissa * 2 ^ exponent := by
    rw [zpow_sub₀ (by norm_num), zpow_natCast]
    push_cast
    field_simp
  refine ⟨steps, by omega, by omega, same, ?_⟩
  rw [UnpackedFloat.round]
  simp only [moved]

theorem near_round (positive : 0 < mantissa) (low : format.minExponent ≤ exponent) :
    SettledIn format (UnpackedFloat.round format side mantissa exponent) ∧
      |rational (UnpackedFloat.round format side mantissa exponent) -
          (side.apply (mantissa : Int) : Int) * 2 ^ exponent| ≤
        roundoffIn format * (mantissa * 2 ^ exponent) := by
  obtain ⟨steps, place_eq, fine, same, rounded⟩ := round_in format side mantissa exponent positive
  have near := near_roundWithAccuracy_exact format side (mantissa * 2 ^ steps) (exponent - steps)
    fine
  rw [if_pos (by omega), apply_mul, same, ← apply_mul, add_zero] at near
  rwa [rounded]

end Whole

theorem add_eq_normalize (side side' : Sign) (mantissa mantissa' : Nat) (exponent exponent' : Int)
    (positive : 0 < mantissa) (positive' : 0 < mantissa') :
    ∃ total : Int,
      rational (.finite side mantissa exponent positive) +
          rational (.finite side' mantissa' exponent' positive') =
        total * 2 ^ min exponent exponent' ∧
      UnpackedFloat.add format (.finite side mantissa exponent positive)
          (.finite side' mantissa' exponent' positive') =
        UnpackedFloat.normalize format total (min exponent exponent') .positive := by
  obtain ⟨place, place_eq⟩ : ∃ place, min exponent exponent' = place := ⟨_, rfl⟩
  obtain ⟨steps, steps_eq, moved⟩ := decreaseExponent_eq mantissa exponent place
  obtain ⟨steps', steps_eq', moved'⟩ := decreaseExponent_eq mantissa' exponent' place
  refine ⟨side.apply ((mantissa * 2 ^ steps : Nat) : Int) +
    side'.apply ((mantissa' * 2 ^ steps' : Nat) : Int), ?_, ?_⟩
  · have first := apply_shift side mantissa steps place
    have second := apply_shift side' mantissa' steps' place
    rw [show place + (steps : Int) = exponent by omega] at first
    rw [show place + (steps' : Int) = exponent' by omega] at second
    rw [rational, rational, first, second, Int.cast_add, add_mul, place_eq]
  · simp only [UnpackedFloat.add, place_eq, moved, moved']

/-- The mantissas are multiplied first, which loses no bit that rounding could keep. -/
theorem mul_in (side side' : Sign) (mantissa mantissa' : Nat) (exponent exponent' : Int)
    (positive : 0 < mantissa) (positive' : 0 < mantissa')
    (left : SettledIn format (.finite side mantissa exponent positive))
    (right : SettledIn format (.finite side' mantissa' exponent' positive')) :
    rational (.finite side mantissa exponent positive) *
          rational (.finite side' mantissa' exponent' positive') =
        (((side * side').apply ((mantissa * mantissa' : Nat) : Int) : Int) : ℚ) *
          2 ^ (exponent + exponent') ∧
      exponent + exponent' ≤ max ((mantissa * mantissa').log2 + 1 + (exponent + exponent') -
        format.mantissaBits) format.minExponent ∧
      UnpackedFloat.mul format (.finite side mantissa exponent positive)
          (.finite side' mantissa' exponent' positive') =
        roundWithAccuracy format (side * side') (mantissa * mantissa') (exponent + exponent')
          .exact := by
  refine ⟨?_, ?_, rfl⟩
  · rw [rational, rational, zpow_add₀ (by norm_num), apply_mul_apply, Int.cast_mul]
    ring
  · by_cases small : exponent + exponent' ≤ format.minExponent
    · omega
    · have bits_eq : format.mantissaBits = format.mantissaBitsWithoutImplicit + 1 :=
        Nat.add_comm 1 _
      have least := minExponent_nonpos format
      have wide : 2 ^ format.mantissaBitsWithoutImplicit ≤ mantissa * mantissa' := by
        obtain ⟨-, low, full⟩ := left
        obtain ⟨-, low', full'⟩ := right
        rcases Nat.lt_or_ge mantissa (2 ^ format.mantissaBitsWithoutImplicit) with short | wide
        · have := full short
          exact (Nat.not_lt.mp fun short' => by have := full' short'; omega).trans
            (Nat.le_mul_of_pos_left _ positive)
        · exact wide.trans (Nat.le_mul_of_pos_right _ positive')
      have bits := (Nat.le_log2 (by positivity)).mpr wide
      omega

/-- The dividend gets bits below it, so many that no bit of the quotient is missing. -/
theorem divCore_in (first second : Nat) (place other : Int) (first_pos : 0 < first)
    (second_pos : 0 < second) :
    ∃ shift : Nat,
      place - other - shift ≤ format.targetExponent
        (totalExponent ((first <<< shift) / second) (place - other - shift)) ∧
      (first * 2 ^ place / (second * 2 ^ other) : ℚ) * second =
        (first <<< shift : Nat) * 2 ^ (place - other - (shift : Int)) ∧
      divCore format first place second other =
        ((first <<< shift) / second, place - other - shift,
          accuracyOfFraction ((first <<< shift) % second) second) := by
  have target : ∃ shift : Nat, min (place - other) (format.targetExponent
      (totalExponent first place - totalExponent second other)) = place - other - shift :=
    ⟨(place - other - min (place - other) (format.targetExponent
      (totalExponent first place - totalExponent second other))).toNat, by omega⟩
  obtain ⟨shift, target⟩ := target
  have amount : (place - other - (place - other - (shift : Int))).toNat = shift := by omega
  refine ⟨shift, ?_, ?_, by simp only [divCore, target, amount]⟩
  · have quotient := log2_le_quotient (first <<< shift) second second_pos
    rw [log2_shiftLeft first shift first_pos] at quotient
    have limit := min_le_right (place - other) (format.targetExponent
      (totalExponent first place - totalExponent second other))
    rw [target] at limit
    unfold Format.targetExponent totalExponent at limit ⊢
    omega
  · have second_cast : (second : ℚ) ≠ 0 := by exact_mod_cast second_pos.ne'
    rw [Nat.shiftLeft_eq, zpow_sub₀ (by norm_num), zpow_sub₀ (by norm_num), zpow_natCast]
    push_cast
    field_simp

theorem near_normalize (total exponent : Int) (zeroSign : Sign)
    (low : format.minExponent ≤ exponent) :
    SettledIn format (UnpackedFloat.normalize format total exponent zeroSign) ∧
      |rational (UnpackedFloat.normalize format total exponent zeroSign) -
          (total : ℚ) * 2 ^ exponent| ≤ roundoffIn format * |(total : ℚ) * 2 ^ exponent| := by
  have magnitude : |(total : ℚ) * 2 ^ exponent| = (total.natAbs : ℚ) * 2 ^ exponent := by
    rw [abs_mul, abs_of_pos (by positivity : (0 : ℚ) < 2 ^ exponent), Nat.cast_natAbs, Int.cast_abs]
  unfold UnpackedFloat.normalize
  rcases lt_trichotomy total 0 with negative | rfl | positive
  · obtain ⟨count, rfl⟩ : ∃ count : Nat, total = -count := ⟨total.natAbs, by omega⟩
    rw [compare_lt_iff_lt.mpr negative, magnitude]
    simpa [Sign.apply] using near_round format .negative count exponent (by omega) low
  · simp [SettledIn, rational]
  · obtain ⟨count, rfl⟩ : ∃ count : Nat, total = count := ⟨total.natAbs, by omega⟩
    rw [compare_gt_iff_gt.mpr positive, magnitude]
    simpa [Sign.apply] using near_round format .positive count exponent (by omega) low

section Operations

variable (x y : UnpackedFloat) (left : SettledIn format x) (right : SettledIn format y)

include left right

theorem near_add :
    SettledIn format (UnpackedFloat.add format x y) ∧
      |rational (UnpackedFloat.add format x y) - (rational x + rational y)| ≤
        roundoffIn format * |rational x + rational y| := by
  have unchanged : ∀ z, SettledIn format z →
      SettledIn format z ∧ |rational z - rational z| ≤ roundoffIn format * |rational z| := by
    intro z settled
    refine ⟨settled, ?_⟩
    rw [sub_self, abs_zero]
    exact mul_nonneg (roundoffIn_pos format).le (abs_nonneg _)
  cases x with
  | notANumber | infinity => exact left.elim
  | zero side =>
    cases y with
    | notANumber | infinity => exact right.elim
    | zero other =>
      rw [UnpackedFloat.add]
      split <;> simp [SettledIn, rational]
    | finite other mantissa exponent positive =>
      have none_added : rational (.zero side) = 0 := rfl
      rw [none_added, zero_add]
      exact unchanged _ right
  | finite side mantissa exponent positive =>
    cases y with
    | notANumber | infinity => exact right.elim
    | zero other =>
      have none_added : rational (.zero other) = 0 := rfl
      rw [none_added, add_zero]
      exact unchanged _ left
    | finite side' mantissa' exponent' positive' =>
      obtain ⟨total, sum, added⟩ :=
        add_eq_normalize format side side' mantissa mantissa' exponent exponent' positive positive'
      rw [sum, added]
      exact near_normalize format total _ .positive (le_min left.2.1 right.2.1)

theorem near_mul :
    SettledIn format (UnpackedFloat.mul format x y) ∧
      |rational (UnpackedFloat.mul format x y) - rational x * rational y| ≤
        roundoffIn format * |rational x * rational y| + underflowIn format := by
  have nothing : (0 : ℚ) ≤ underflowIn format := (underflowIn_pos format).le
  cases x with
  | notANumber | infinity => exact left.elim
  | zero side =>
    cases y with
    | notANumber | infinity => exact right.elim
    | zero other => simpa [UnpackedFloat.mul, SettledIn, rational] using nothing
    | finite other mantissa exponent positive =>
      simpa [UnpackedFloat.mul, SettledIn, rational] using nothing
  | finite side mantissa exponent positive =>
    cases y with
    | notANumber | infinity => exact right.elim
    | zero other => simpa [UnpackedFloat.mul, SettledIn, rational] using nothing
    | finite side' mantissa' exponent' positive' =>
      obtain ⟨product, fine, multiplied⟩ := mul_in format side side' mantissa mantissa'
        exponent exponent' positive positive' left right
      have near := near_roundWithAccuracy_exact format (side * side') (mantissa * mantissa')
        (exponent + exponent') fine
      rw [product, multiplied]
      refine ⟨near.1, near.2.trans ?_⟩
      rw [apply_mul, abs_apply_mul, abs_of_nonneg (by positivity)]
      split
      · linarith
      · exact le_rfl

theorem near_div (nonzero : rational y ≠ 0) :
    SettledIn format (UnpackedFloat.div format x y) ∧
      |rational (UnpackedFloat.div format x y) - rational x / rational y| ≤
        roundoffIn format * |rational x / rational y| + underflowIn format := by
  have nothing : (0 : ℚ) ≤ underflowIn format := (underflowIn_pos format).le
  cases y with
  | notANumber | infinity => exact right.elim
  | zero other => exact absurd rfl nonzero
  | finite side' mantissa' exponent' positive' =>
    cases x with
    | notANumber | infinity => exact left.elim
    | zero side => simpa [UnpackedFloat.div, SettledIn, rational] using nothing
    | finite side mantissa exponent positive =>
      obtain ⟨shift, fine, fraction, core⟩ :=
        divCore_in format mantissa mantissa' exponent exponent' positive positive'
      have unit_pos : (0 : ℚ) < mantissa' := by exact_mod_cast positive'
      have quotient : rational (.finite side mantissa exponent positive) /
          rational (.finite side' mantissa' exponent' positive') =
            ((side / side').apply 1 : Int) *
              ((mantissa <<< shift : Nat) / mantissa' * 2 ^ (exponent - exponent' - shift)) := by
        rw [div_mul_eq_mul_div, ← fraction, mul_div_cancel_right₀ _ unit_pos.ne', rational,
          rational, apply_mul, apply_mul, apply_one_div, mul_div_mul_comm]
      have near := near_roundWithAccuracy format (side / side') (mantissa <<< shift) mantissa'
        (exponent - exponent' - shift) positive' fine
      simp only [UnpackedFloat.div, core]
      rw [quotient]
      refine ⟨near.1, near.2.trans ?_⟩
      rw [abs_apply_mul, abs_of_nonneg (by positivity)]
      gcongr
      split
      · exact nothing
      · exact le_rfl

theorem sub_in :
    UnpackedFloat.sub format x y = UnpackedFloat.add format x y.neg := by
  cases x with
  | notANumber | infinity => exact left.elim
  | zero side =>
    cases y with
    | notANumber | infinity => exact right.elim
    | zero other => rfl
    | finite other mantissa exponent positive => rfl
  | finite side mantissa exponent positive =>
    cases y with
    | notANumber | infinity => exact right.elim
    | zero other => rfl
    | finite side' mantissa' exponent' positive' =>
      have opposite (count : Nat) : (-side').apply (count : Int) = -side'.apply (count : Int) := by
        cases side' with
        | positive => rfl
        | negative => exact (Int.neg_neg _).symm
      simp only [UnpackedFloat.sub, UnpackedFloat.add, UnpackedFloat.neg, opposite,
        Int.sub_eq_add_neg]

omit left in
theorem neg_in : SettledIn format y.neg ∧ rational y.neg = -rational y := by
  cases y with
  | notANumber | infinity => exact right.elim
  | zero side => exact ⟨trivial, neg_zero.symm⟩
  | finite side mantissa exponent positive =>
    refine ⟨right, ?_⟩
    cases side <;> simp [rational, UnpackedFloat.neg, Sign.apply]

theorem near_sub :
    SettledIn format (UnpackedFloat.sub format x y) ∧
      |rational (UnpackedFloat.sub format x y) - (rational x - rational y)| ≤
        roundoffIn format * |rational x - rational y| := by
  obtain ⟨settled, opposite⟩ := neg_in format y right
  rw [sub_in format x y left right, sub_eq_add_neg (rational x), ← opposite]
  exact near_add format x y.neg left settled

end Operations

theorem settledIn_unpack (bits : BitVec format.numBits)
    (finite : (UnpackedFloat.unpack format bits).isFinite = true) :
    SettledIn format (UnpackedFloat.unpack format bits) := by
  rw [unpack_eq_decode] at finite ⊢
  cases parts : (layoutOf format).decode bits.toNat with
  | notANumber | infinite =>
    rw [parts] at finite
    cases finite
  | finite negative mantissa exponent =>
    rw [Binary.unpacked]
    split
    · exact fits_of_decode format bits.toNat negative mantissa exponent parts
    · trivial

theorem exponentBias_range (wide : 1 < format.exponentBits) :
    (1 : Int) ≤ format.exponentBias ∧
      (2 : Int) ^ format.exponentBits = 2 * (format.exponentBias + 1) := by
  obtain ⟨more, same⟩ : ∃ more, format.exponentBits = more + 2 :=
    ⟨format.exponentBits - 2, by omega⟩
  have power : (1 : Int) ≤ 2 ^ more := by exact_mod_cast Nat.one_le_two_pow
  have half : more + 2 - 1 = more + 1 := rfl
  rw [exponentBias_cast, same, half, pow_succ, pow_succ]
  omega

theorem unpack_settledIn (x : UnpackedFloat) (wide : 1 < format.exponentBits)
    (settled : SettledIn format x) (room : |rational x| < 2 ^ ((format.exponentBias : Int) + 1)) :
    UnpackedFloat.unpack format (UnpackedFloat.pack format x) = x := by
  have least := minExponent_eq format
  obtain ⟨some_bias, exponents⟩ := exponentBias_range format wide
  cases x with
  | notANumber | infinity => exact settled.elim
  | zero side =>
    have inside : (0 : BitVec format.exponentBits) ≠ -1#_ :=
      ne_top _ (Nat.one_lt_two_pow (by omega))
    rw [UnpackedFloat.pack, packedZero, unpack_packComponents, if_neg inside]
    simp
  | finite side mantissa exponent positive =>
    obtain ⟨small, low, full⟩ := settled
    apply unpack_stored format side mantissa exponent positive small low _ full
    by_contra above
    have normal : 2 ^ format.mantissaBitsWithoutImplicit ≤ mantissa := by
      by_contra subnormal
      have := full (by omega)
      omega
    rw [rational, apply_mul, abs_apply_mul, abs_of_nonneg (by positivity)] at room
    have large : (2 : ℚ) ^ ((format.exponentBias : Int) + 1) ≤ mantissa * 2 ^ exponent := calc
      (2 : ℚ) ^ ((format.exponentBias : Int) + 1) ≤
          2 ^ ((format.mantissaBitsWithoutImplicit : Int) + exponent) :=
        zpow_le_zpow_right₀ (by norm_num) (by omega)
      _ = 2 ^ format.mantissaBitsWithoutImplicit * 2 ^ exponent := by
        rw [zpow_add₀ (by norm_num), zpow_natCast]
      _ ≤ mantissa * 2 ^ exponent := by
        apply mul_le_mul_of_nonneg_right _ (by positivity)
        exact_mod_cast normal
    exact absurd room large.not_gt

end Formats

end Cartograph.Number

import Cartograph.Proofs.Number.Monotone
import Cartograph.Proofs.Number.Rounding

/-! Sums, differences and quotients of finite doubles are the doubles nearest to the exact results.
So a result that lies between two doubles exactly lies between them as it is computed, and does not
overflow. -/

namespace Cartograph.Number

open Float.Model Float.Model.UnpackedFloat

section Fraction

variable (count unit : Nat) (exponent : Int) (count_pos : 0 < count) (unit_pos : 0 < unit)
  (fine : exponent ≤ max ((count / unit).log2 + 1 + exponent - 53) (-1074))

include count_pos unit_pos fine

theorem lastPlace_fraction : lastPlace (count / unit * 2 ^ exponent) =
    max ((count / unit).log2 + 1 + exponent - 53) (-1074) := by
  have count_cast : (0 : ℚ) < count := by exact_mod_cast count_pos
  have unit_cast : (0 : ℚ) < unit := by exact_mod_cast unit_pos
  have size_pos : (0 : ℚ) < count / unit * 2 ^ exponent := by positivity
  have above (bits : Nat) (less : count / unit < 2 ^ bits) :
      Int.log 2 ((count / unit : ℚ) * 2 ^ exponent) < bits + exponent := by
    apply (Int.lt_zpow_iff_log_lt Nat.one_lt_two size_pos).mp
    rw [Nat.cast_two, zpow_add₀ two_ne_zero, zpow_natCast]
    apply mul_lt_mul_of_pos_right _ (by positivity)
    rw [div_lt_iff₀ unit_cast]
    exact_mod_cast (Nat.div_lt_iff_lt_mul unit_pos).mp less
  unfold lastPlace
  rcases Nat.eq_zero_or_pos (count / unit) with none_whole | whole_pos
  · have below := above 0 (by rw [none_whole]; decide)
    rw [none_whole, Nat.log2_zero] at fine ⊢
    omega
  · have less := above ((count / unit).log2 + 1) Nat.lt_log2_self
    have most : (count / unit).log2 + exponent ≤
        Int.log 2 ((count / unit : ℚ) * 2 ^ exponent) := by
      apply (Int.zpow_le_iff_le_log Nat.one_lt_two size_pos).mp
      rw [Nat.cast_two, zpow_add₀ two_ne_zero, zpow_natCast]
      apply mul_le_mul_of_nonneg_right _ (by positivity)
      rw [le_div_iff₀ unit_cast]
      have bits := (Nat.le_div_iff_mul_le unit_pos).mp (Nat.log2_self_le whole_pos.ne')
      exact_mod_cast bits
    omega

theorem rational_fraction (side : Sign) :
    rational (roundWithAccuracy .binary64 side (count / unit) exponent
        (accuracyOfFraction (count % unit) unit)) =
      (side.apply 1 : Int) * nearestSize (count / unit * 2 ^ exponent) := by
  obtain ⟨steps, place_eq, result⟩ := rational_roundWithAccuracy side exponent count unit unit_pos
  have place : lastPlace (count / unit * 2 ^ exponent) = exponent + steps := by
    rw [lastPlace_fraction count unit exponent count_pos unit_pos fine, place_eq, max_eq_right fine]
  have scaled : (count / unit : ℚ) * 2 ^ exponent / 2 ^ (exponent + steps) =
      count / (unit * 2 ^ steps : Nat) := by
    rw [zpow_add₀ two_ne_zero, zpow_natCast]
    push_cast
    field_simp
  rw [result, nearestSize, place, scaled, nearestEven_div _ _ (by positivity)]
  rfl

end Fraction

theorem nearest_apply (side : Sign) (size : ℚ) (nonneg : 0 ≤ size) :
    nearest ((side.apply 1 : Int) * size) = (side.apply 1 : Int) * nearestSize size := by
  cases side with
  | positive => simp [Sign.apply, nearest_of_nonneg size nonneg]
  | negative => simp [Sign.apply, nearest_neg, nearest_of_nonneg size nonneg]

/-- What rounding an exact result gives: the nearest double, without a largest exponent. -/
def Rounds (result : UnpackedFloat) (exact : ℚ) : Prop :=
  Settled result ∧ rational result = nearest exact

theorem round_rounds (side : Sign) (mantissa : Nat) (exponent : Int) (positive : 0 < mantissa) :
    Rounds (UnpackedFloat.round .binary64 side mantissa exponent)
      ((side.apply (mantissa : Int) : Int) * 2 ^ exponent) := by
  obtain ⟨steps, -, fine, same, rounded⟩ := round_eq side mantissa exponent positive
  have shifted_pos : 0 < mantissa * 2 ^ steps := by positivity
  have result := rational_fraction (mantissa * 2 ^ steps) 1 (exponent - steps) shifted_pos
    Nat.one_pos (by rwa [Nat.div_one]) side
  rw [Nat.div_one, Nat.mod_one, accuracy_whole, Nat.cast_one, div_one, same] at result
  rw [rounded]
  refine ⟨settled_roundWithAccuracy_exact side _ _ fine, ?_⟩
  rw [result, apply_mul, nearest_apply side _ (by positivity)]

theorem normalize_rounds (total exponent : Int) (zeroSign : Sign) :
    Rounds (UnpackedFloat.normalize .binary64 total exponent zeroSign) (total * 2 ^ exponent) := by
  unfold UnpackedFloat.normalize
  rcases lt_trichotomy total 0 with negative | rfl | positive
  · obtain ⟨count, rfl⟩ : ∃ count : Nat, total = -count := ⟨total.natAbs, by omega⟩
    rw [compare_lt_iff_lt.mpr negative]
    simpa [Sign.apply] using round_rounds .negative count exponent (by omega)
  · refine ⟨trivial, ?_⟩
    rw [Int.cast_zero, zero_mul, nearest_of_nonneg 0 le_rfl, nearestSize_zero]
    rfl
  · obtain ⟨count, rfl⟩ : ∃ count : Nat, total = count := ⟨total.natAbs, by omega⟩
    rw [compare_gt_iff_gt.mpr positive]
    simpa [Sign.apply] using round_rounds .positive count exponent (by omega)

section Settled

variable (x y : UnpackedFloat) (left : Settled x) (right : Settled y)

include left

theorem rounds_self : Rounds x (rational x) := by
  refine ⟨left, ?_⟩
  cases x with
  | notANumber | infinity => exact left.elim
  | zero side => exact (nearest_of_nonneg 0 le_rfl).trans nearestSize_zero |>.symm
  | finite side mantissa exponent positive =>
    rw [rational, apply_mul, nearest_apply side _ (by positivity),
      nearestSize_whole mantissa exponent left.1 left.2.1]

include right

theorem add_rounds : Rounds (UnpackedFloat.add .binary64 x y) (rational x + rational y) := by
  cases x with
  | notANumber | infinity => exact left.elim
  | zero side =>
    have none_added : rational (.zero side) = 0 := rfl
    rw [none_added, zero_add]
    cases y with
    | notANumber | infinity => exact right.elim
    | zero other =>
      rw [UnpackedFloat.add]
      split
      · exact rounds_self (.zero side) trivial
      · exact rounds_self (.zero .positive) trivial
    | finite other mantissa exponent positive => exact rounds_self _ right
  | finite side mantissa exponent positive =>
    cases y with
    | notANumber | infinity => exact right.elim
    | zero other =>
      have none_added : rational (.zero other) = 0 := rfl
      rw [none_added, add_zero]
      exact rounds_self _ left
    | finite side' mantissa' exponent' positive' =>
      obtain ⟨total, sum, added⟩ :=
        add_eq_normalize .binary64 side side' mantissa mantissa' exponent exponent' positive positive'
      rw [sum, added]
      exact normalize_rounds total _ .positive

theorem sub_rounds : Rounds (UnpackedFloat.sub .binary64 x y) (rational x - rational y) := by
  obtain ⟨settled, opposite⟩ := settled_neg y right
  rw [sub_eq_add_opposite x y left right, sub_eq_add_neg (rational x), ← opposite]
  exact add_rounds x y.neg left settled

theorem mul_rounds : Rounds (UnpackedFloat.mul .binary64 x y) (rational x * rational y) := by
  cases x with
  | notANumber | infinity => exact left.elim
  | zero side =>
    have nothing : rational (.zero side) = 0 := rfl
    rw [nothing, zero_mul]
    cases y with
    | notANumber | infinity => exact right.elim
    | zero other | finite other => exact rounds_self (.zero (side * other)) trivial
  | finite side mantissa exponent positive =>
    cases y with
    | notANumber | infinity => exact right.elim
    | zero other =>
      have nothing : rational (.zero other) = 0 := rfl
      rw [nothing, mul_zero]
      exact rounds_self (.zero (side * other)) trivial
    | finite side' mantissa' exponent' positive' =>
      obtain ⟨product, fine, multiplied⟩ := mul_eq_rounded side side' mantissa mantissa' exponent
        exponent' positive positive' left right
      have result := rational_fraction (mantissa * mantissa') 1 (exponent + exponent')
        (Nat.mul_pos positive positive') Nat.one_pos (by rwa [Nat.div_one]) (side * side')
      rw [Nat.div_one, Nat.mod_one, accuracy_whole, Nat.cast_one, div_one] at result
      rw [product, multiplied]
      refine ⟨settled_roundWithAccuracy_exact _ _ _ fine, ?_⟩
      rw [result, apply_mul, nearest_apply _ _ (by positivity)]

theorem div_rounds (nonzero : rational y ≠ 0) :
    Rounds (UnpackedFloat.div .binary64 x y) (rational x / rational y) := by
  cases y with
  | notANumber | infinity => exact right.elim
  | zero other => exact absurd rfl nonzero
  | finite side' mantissa' exponent' positive' =>
    cases x with
    | notANumber | infinity => exact left.elim
    | zero side =>
      have nothing : rational (.zero side) = 0 := rfl
      rw [nothing, zero_div]
      exact rounds_self (.zero (side / side')) trivial
    | finite side mantissa exponent positive =>
      obtain ⟨shift, fine, fraction, core⟩ :=
        divCore_in .binary64 mantissa mantissa' exponent exponent' positive positive'
      have shifted_pos : 0 < mantissa <<< shift := Nat.shiftLeft_pos_iff.mpr positive
      have unit_pos : (0 : ℚ) < mantissa' := by exact_mod_cast positive'
      rw [targetExponent_eq] at fine
      have result := rational_fraction _ _ _ shifted_pos positive' fine (side / side')
      have quotient : rational (.finite side mantissa exponent positive) /
          rational (.finite side' mantissa' exponent' positive') =
            ((side / side').apply 1 : Int) *
              ((mantissa <<< shift : Nat) / mantissa' * 2 ^ (exponent - exponent' - shift)) := by
        rw [div_mul_eq_mul_div, ← fraction, mul_div_cancel_right₀ _ unit_pos.ne', rational,
          rational, apply_mul, apply_mul, apply_one_div, mul_div_mul_comm]
      simp only [UnpackedFloat.div, core]
      refine ⟨settled_roundWithAccuracy _ _ _ _ positive' fine, ?_⟩
      rw [quotient, nearest_apply _ _ (by positivity), result]

end Settled

theorem unpack_of_isFinite (result : UnpackedFloat) (settled : Settled result)
    (finite : (UnpackedFloat.unpack .binary64 (UnpackedFloat.pack .binary64 result)).isFinite =
      true) :
    UnpackedFloat.unpack .binary64 (UnpackedFloat.pack .binary64 result) = result := by
  cases result with
  | notANumber | infinity => exact settled.elim
  | zero side => cases side <;> rfl
  | finite side mantissa exponent positive =>
    obtain ⟨small, low, full⟩ := settled
    rcases le_or_gt exponent 971 with high | above
    · exact unpack_pack side mantissa exponent positive ⟨small, low, high, full⟩
    · have overflows : 2 ^ Format.binary64.exponentBits ≤ (exponent + Format.binary64.exponentBias +
          Format.binary64.mantissaBitsWithoutImplicit).toNat + 1 := by
        change 2048 ≤ (exponent + (1023 : Nat) + (52 : Nat)).toNat + 1
        omega
      rw [UnpackedFloat.pack] at finite
      simp only [if_pos overflows] at finite
      cases side <;> exact absurd finite (by decide)

/-- The value of a finite double. -/
def IsDouble (x : ℚ) : Prop := nearest x = x ∧ |x| < 2 ^ (1024 : Int)

theorem isDouble_whole (mantissa : Nat) (exponent : Int) (small : mantissa < 2 ^ 53)
    (low : -1074 ≤ exponent) (high : exponent ≤ 971) : IsDouble (mantissa * 2 ^ exponent) := by
  have nonneg : (0 : ℚ) ≤ mantissa * 2 ^ exponent := by positivity
  constructor
  · rw [nearest_of_nonneg _ nonneg, nearestSize_whole mantissa exponent small low]
  · rw [abs_of_nonneg nonneg]
    calc (mantissa : ℚ) * 2 ^ exponent < 2 ^ 53 * 2 ^ exponent := by
          apply mul_lt_mul_of_pos_right _ (by positivity)
          exact_mod_cast small
      _ ≤ 2 ^ 53 * 2 ^ (971 : Int) := by
        gcongr
        exact one_le_two
      _ = 2 ^ (1024 : Int) := by
        rw [← zpow_natCast, ← zpow_add₀ two_ne_zero]
        rfl

theorem isDouble_neg (x : ℚ) (double : IsDouble x) : IsDouble (-x) := by
  rw [IsDouble, nearest_neg, abs_neg, double.1]
  exact ⟨rfl, double.2⟩

def Computes (x : Float) (exact : ℚ) : Prop :=
  (|nearest exact| < 2 ^ (1024 : Int) → x.isFinite = true) ∧
    (x.isFinite = true → value x = nearest exact)

theorem computes_of_pack (x : Float) (result : UnpackedFloat) (exact : ℚ)
    (packed : x.toModel.unpack =
      UnpackedFloat.unpack .binary64 (UnpackedFloat.pack .binary64 result))
    (rounds : Rounds result exact) : Computes x exact := by
  obtain ⟨settled, nearest_eq⟩ := rounds
  constructor
  · intro room
    rw [← nearest_eq] at room
    change x.toModel.unpack.isFinite = true
    rw [packed, unpack_settled result settled room]
    cases result with
    | notANumber | infinity => exact settled.elim
    | zero | finite => rfl
  · intro finite
    change x.toModel.unpack.isFinite = true at finite
    rw [packed] at finite
    rw [value, packed, unpack_of_isFinite result settled finite, nearest_eq]

theorem Computes.between {x : Float} {exact low high : ℚ} (computes : Computes x exact)
    (low_double : IsDouble low) (high_double : IsDouble high) (above : low ≤ exact)
    (below : exact ≤ high) : x.isFinite = true ∧ low ≤ value x ∧ value x ≤ high := by
  have first := nearest_mono above
  have last := nearest_mono below
  rw [low_double.1] at first
  rw [high_double.1] at last
  have room : |nearest exact| < 2 ^ (1024 : Int) := by
    have low_room := (abs_lt.mp low_double.2).1
    have high_room := (abs_lt.mp high_double.2).2
    exact abs_lt.mpr ⟨low_room.trans_le first, last.trans_lt high_room⟩
  have finite := computes.1 room
  rw [computes.2 finite]
  exact ⟨finite, first, last⟩

theorem value_of_unpack (x : Float) (side : Sign) (mantissa : Nat) (exponent : Int)
    (positive : 0 < mantissa) (shape : x.toModel.unpack = .finite side mantissa exponent positive) :
    value x = (side.apply 1 : Int) * (mantissa * 2 ^ exponent) := by
  rw [value, shape]
  exact apply_mul side mantissa _

section Doubles

variable (x y : Float) (left : x.isFinite = true) (right : y.isFinite = true)

include left

theorem value_cases : value x = 0 ∨ ∃ (side : Sign) (mantissa : Nat) (exponent : Int),
    Storable mantissa exponent ∧ value x = (side.apply 1 : Int) * (mantissa * 2 ^ exponent) := by
  have settled := settled_of_isFinite x left
  have canonical := canonical_of_number x (number_of_isFinite x left)
  rw [← unpack_eq_ofDouble] at canonical
  cases shape : x.toModel.unpack with
  | notANumber | infinity =>
    rw [shape] at settled
    exact settled.elim
  | zero side =>
    left
    rw [value, shape]
    rfl
  | finite side mantissa exponent positive =>
    rw [shape] at canonical
    exact .inr ⟨side, mantissa, exponent, canonical, value_of_unpack x side _ _ positive shape⟩

theorem isDouble_value : IsDouble (value x) := by
  rcases value_cases x left with nothing | ⟨side, mantissa, exponent, stored, value_eq⟩
  · simpa [nothing] using isDouble_whole 0 0 (by decide) (by decide) (by decide)
  · have size := isDouble_whole mantissa exponent stored.small stored.low stored.high
    rw [value_eq]
    cases side with
    | positive => simpa [Sign.apply] using size
    | negative => simpa [Sign.apply] using isDouble_neg _ size

theorem isDouble_half (large : 2 ^ (-100 : Int) ≤ value x) : IsDouble (value x / 2) := by
  have positive : 0 < value x := lt_of_lt_of_le (by positivity) large
  rcases value_cases x left with nothing | ⟨side, mantissa, exponent, stored, value_eq⟩
  · exact absurd nothing positive.ne'
  · have size_nonneg : (0 : ℚ) ≤ mantissa * 2 ^ exponent := by positivity
    cases side with
    | negative =>
      simp only [Sign.apply, Int.cast_neg, Int.cast_one, neg_one_mul] at value_eq
      linarith
    | positive =>
      simp only [Sign.apply, Int.cast_one, one_mul] at value_eq
      have place : -100 < 53 + exponent := by
        rw [← zpow_lt_zpow_iff_right₀ (one_lt_two (α := ℚ)), zpow_add₀ two_ne_zero]
        rw [value_eq] at large
        apply large.trans_lt
        apply mul_lt_mul_of_pos_right _ (by positivity)
        exact_mod_cast stored.small
      have half : value x / 2 = mantissa * 2 ^ (exponent - 1) := by
        rw [value_eq, zpow_sub₀ two_ne_zero, zpow_one]
        ring
      have high := stored.high
      rw [half]
      exact isDouble_whole mantissa (exponent - 1) stored.small (by omega) (by omega)

include right

theorem add_computes : Computes (x + y) (value x + value y) :=
  computes_of_pack _ _ _ rfl
    (add_rounds _ _ (settled_of_isFinite x left) (settled_of_isFinite y right))

theorem sub_computes : Computes (x - y) (value x - value y) :=
  computes_of_pack _ _ _ rfl
    (sub_rounds _ _ (settled_of_isFinite x left) (settled_of_isFinite y right))

theorem mul_computes : Computes (x * y) (value x * value y) :=
  computes_of_pack _ _ _ rfl
    (mul_rounds _ _ (settled_of_isFinite x left) (settled_of_isFinite y right))

theorem div_computes (nonzero : value y ≠ 0) : Computes (x / y) (value x / value y) :=
  computes_of_pack _ _ _ rfl
    (div_rounds _ _ (settled_of_isFinite x left) (settled_of_isFinite y right) nonzero)

end Doubles

/-- A difference within another one is no larger when rounded, and does not overflow if the other
one does not. -/
theorem sub_within (low x high : Float) (low_finite : low.isFinite = true)
    (x_finite : x.isFinite = true) (high_finite : high.isFinite = true)
    (finite : (high - low).isFinite = true) (above : value low ≤ value x)
    (below : value x ≤ value high) :
    (high - x).isFinite = true ∧ 0 ≤ value (high - x) ∧ value (high - x) ≤ value (high - low) := by
  have computed := sub_computes high x high_finite x_finite
  have nonneg := nearest_nonneg _ (sub_nonneg.mpr below)
  have most := nearest_mono (sub_le_sub_left above (value high))
  rw [← (sub_computes high low high_finite low_finite).2 finite] at most
  have room : |nearest (value high - value x)| < 2 ^ (1024 : Int) := by
    rw [abs_of_nonneg nonneg]
    exact most.trans_lt ((le_abs_self _).trans_lt (isDouble_value _ finite).2)
  rw [computed.2 (computed.1 room)]
  exact ⟨computed.1 room, nonneg, most⟩

section Whole

theorem value_zero : value 0 = 0 := rfl

theorem value_one : value 1 = 1 := by
  rw [value_of_unpack 1 .positive (2 ^ 52) (-52) (by decide) rfl]
  norm_num [Sign.apply]

theorem value_minus_one : value (-1) = -1 := by
  rw [value_of_unpack (-1) .negative (2 ^ 52) (-52) (by decide) rfl]
  norm_num [Sign.apply]

theorem value_two : value 2 = 2 := by
  rw [value_of_unpack 2 .positive (2 ^ 52) (-51) (by decide) rfl]
  norm_num [Sign.apply]

theorem value_three : value 3 = 3 := by
  rw [value_of_unpack 3 .positive (3 * 2 ^ 51) (-51) (by decide) rfl]
  norm_num [Sign.apply]

theorem value_six : value 6 = 6 := by
  rw [value_of_unpack 6 .positive (3 * 2 ^ 51) (-50) (by decide) rfl]
  norm_num [Sign.apply]

theorem isDouble_zero : IsDouble 0 := isDouble_value 0 rfl

theorem isDouble_one : IsDouble 1 := value_one ▸ isDouble_value 1 rfl

theorem isDouble_minus_one : IsDouble (-1) := value_minus_one ▸ isDouble_value (-1) rfl

theorem isDouble_two : IsDouble 2 := value_two ▸ isDouble_value 2 rfl

end Whole

end Cartograph.Number

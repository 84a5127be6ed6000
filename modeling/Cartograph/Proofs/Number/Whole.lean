import Cartograph.Number.Rounding
import Cartograph.Proofs.Number.Special

/-! Taking numbers to whole ones. A double is cut or rounded to a whole number without a further
error, since a double with a fraction is small enough for all whole numbers next to it to be
doubles themselves. -/

namespace Cartograph.Number

open Float.Model Float.Model.UnpackedFloat

/-- The whole number next to a number on the side of zero. -/
def cut (x : ℚ) : ℤ := if 0 ≤ x then ⌊x⌋ else ⌈x⌉

section Cut

theorem cut_of_nonneg (x : ℚ) (nonneg : 0 ≤ x) : cut x = ⌊x⌋ := if_pos nonneg

theorem cut_of_nonpos (x : ℚ) (nonpos : x ≤ 0) : cut x = ⌈x⌉ := by
  unfold cut
  split
  · next nonneg =>
    obtain rfl := le_antisymm nonpos nonneg
    rw [Int.floor_zero, Int.ceil_zero]
  · rfl

theorem cut_intCast (whole : ℤ) : cut whole = whole := by
  unfold cut
  split
  · exact Int.floor_intCast whole
  · exact Int.ceil_intCast whole

theorem le_cut (x : ℚ) (whole : ℤ) (le : (whole : ℚ) ≤ x) : whole ≤ cut x := by
  unfold cut
  split
  · exact Int.le_floor.mpr le
  · exact_mod_cast le.trans (Int.le_ceil x)

theorem lt_of_cut (x : ℚ) : (cut x : ℚ) - 1 < x := by
  unfold cut
  split
  · linarith [Int.floor_le x]
  · linarith [Int.ceil_lt_add_one x]

theorem cut_apply (side : Sign) (size : ℚ) (nonneg : 0 ≤ size) :
    cut ((side.apply 1 : Int) * size) = side.apply ⌊size⌋ := by
  cases side with
  | positive => simp [Sign.apply, cut_of_nonneg size nonneg]
  | negative =>
    have nonpos : -size ≤ 0 := neg_nonpos.mpr nonneg
    simp [Sign.apply, cut_of_nonpos (-size) nonpos, Int.ceil_neg]

end Cut

section Parts

variable (mantissa : Nat) (exponent : Int)

theorem scaled_of_fraction (fraction : exponent < 0) :
    (mantissa : ℚ) * 2 ^ exponent = mantissa / (2 ^ (-exponent).toNat : Nat) := by
  have place : exponent = -((-exponent).toNat : Int) := by omega
  rw [place, zpow_neg, zpow_natCast, neg_neg, Int.toNat_natCast, div_eq_mul_inv]
  norm_cast

theorem apply_whole (direction : Direction) (whole : 0 ≤ exponent) :
    ((direction.apply mantissa exponent : Nat) : ℚ) = mantissa * 2 ^ exponent := by
  rw [Direction.apply, if_pos whole]
  obtain ⟨places, rfl⟩ := Int.eq_ofNat_of_zero_le whole
  rw [Int.toNat_natCast, zpow_natCast]
  exact_mod_cast rfl

theorem apply_towardZero :
    (Direction.towardZero.apply mantissa exponent : Int) = ⌊(mantissa : ℚ) * 2 ^ exponent⌋ := by
  by_cases whole : 0 ≤ exponent
  · rw [← apply_whole mantissa exponent .towardZero whole, Int.floor_natCast]
  · rw [scaled_of_fraction mantissa exponent (by omega), Rat.floor_natCast_div_natCast,
      Direction.apply, if_neg whole]
    rfl

theorem apply_nearest :
    (Direction.nearest.apply mantissa exponent : Int) =
      ⌊(mantissa : ℚ) * 2 ^ exponent + 1 / 2⌋ := by
  by_cases whole : 0 ≤ exponent
  · rw [← apply_whole mantissa exponent .nearest whole, Int.floor_natCast_add]
    norm_num
  · rw [scaled_of_fraction mantissa exponent (by omega), Direction.apply, if_neg whole]
    have unit_pos : (0 : ℚ) < (2 ^ (-exponent).toNat : Nat) := by positivity
    have half : (mantissa : ℚ) / (2 ^ (-exponent).toNat : Nat) + 1 / 2 =
        (2 * mantissa + 2 ^ (-exponent).toNat : Nat) / (2 * 2 ^ (-exponent).toNat : Nat) := by
      push_cast at unit_pos ⊢
      field_simp
    rw [half, Rat.floor_natCast_div_natCast]
    rfl

end Parts

section Doubles

variable (x : Float)

theorem parts_of_isFinite (finite : x.isFinite = true) :
    ∃ negative mantissa exponent, ofDouble x = .finite negative mantissa exponent := by
  cases parts : ofDouble x with
  | notANumber | infinite =>
    change x.toModel.unpack.isFinite = true at finite
    rw [unpack_eq_ofDouble, parts] at finite
    cases finite
  | finite negative mantissa exponent => exact ⟨negative, mantissa, exponent, rfl⟩

theorem value_of_parts (negative : Bool) (mantissa : Nat) (exponent : Int)
    (parts : ofDouble x = .finite negative mantissa exponent) :
    value x = ((sign negative).apply 1 : Int) * (mantissa * 2 ^ exponent) := by
  rw [value, unpack_eq_ofDouble, parts, rational_unpacked]

theorem wholePart_eq (low high : Int) (finite : x.isFinite = true) :
    wholePart low high (ofDouble x) = max low (min high (cut (value x))) := by
  obtain ⟨negative, mantissa, exponent, parts⟩ := parts_of_isFinite x finite
  rw [value_of_parts x negative mantissa exponent parts, parts, cut_apply _ _ (by positivity),
    ← apply_towardZero]
  cases negative <;> rfl

theorem toCell_eq (finite : x.isFinite = true) :
    toCell x = max (-(2 ^ 63)) (min (2 ^ 63 - 1) (cut (value x))) := wholePart_eq x _ _ finite

theorem toCount_eq (finite : x.isFinite = true) :
    (toCount x : Int) = max 0 (min (2 ^ 64 - 1) (cut (value x))) := by
  have whole := wholePart_eq x 0 (2 ^ 64 - 1) finite
  have nonneg : 0 ≤ wholePart 0 (2 ^ 64 - 1) (ofDouble x) := by
    rw [whole]
    exact le_max_left _ _
  exact (Int.toNat_of_nonneg nonneg).trans whole

theorem toByte_eq (finite : x.isFinite = true) :
    (toByte x : Int) = max 0 (min 255 (cut (value x))) := by
  have whole := wholePart_eq x 0 255 finite
  have nonneg : 0 ≤ wholePart 0 255 (ofDouble x) := by
    rw [whole]
    exact le_max_left _ _
  exact (Int.toNat_of_nonneg nonneg).trans whole

theorem value_neg (finite : x.isFinite = true) : (-x).isFinite = true ∧ value (-x) = -value x := by
  obtain ⟨-, opposite⟩ := settled_neg _ (settled_of_isFinite x finite)
  constructor
  · change (-x).toModel.unpack.isFinite = true
    change x.toModel.unpack.isFinite = true at finite
    rw [unpack_neg]
    cases parts : x.toModel.unpack with
    | notANumber | infinity =>
      rw [parts] at finite
      cases finite
    | zero | finite => rfl
  · rw [value, unpack_neg, opposite, value]

end Doubles

theorem value_ofNat (count : Nat) (small : count < 2 ^ 53) :
    (Float.ofNat count).isFinite = true ∧ value (Float.ofNat count) = count := by
  rcases Nat.eq_zero_or_pos count with rfl | positive
  · exact ⟨rfl, rfl⟩
  · obtain ⟨mantissa, exponent, whole⟩ := isWhole_toFloat count positive small
    have rounds := roundsTo_self mantissa exponent whole.positive
    rw [whole.value, ← mul_one (count : ℚ), ← zpow_zero 10] at rounds
    have packed : Float.ofNat count =
        Float.ofModel (.pack (.finite .positive mantissa exponent whole.positive)) :=
      ofScientific_of_roundsTo count mantissa 0 exponent whole.positive whole.storable rounds
    have unpacked : (Float.ofNat count).toModel.unpack =
        .finite .positive mantissa exponent whole.positive := by
      rw [packed]
      exact unpack_pack _ mantissa exponent whole.positive whole.storable
    constructor
    · change (Float.ofNat count).toModel.unpack.isFinite = true
      rw [unpacked]
      rfl
    · rw [value_of_unpack _ _ mantissa exponent whole.positive unpacked, whole.value]
      exact one_mul _

theorem isDouble_intCast (whole : ℤ) (small : whole.natAbs < 2 ^ 53) : IsDouble whole := by
  have size := isDouble_whole whole.natAbs 0 small (by decide) (by decide)
  rw [zpow_zero, mul_one] at size
  rcases Int.natAbs_eq whole with same | opposite
  · rw [same, Int.cast_natCast]
    exact size
  · rw [opposite, Int.cast_neg, Int.cast_natCast]
    exact isDouble_neg _ size

theorem Computes.exactly {x : Float} {exact : ℚ} (computes : Computes x exact)
    (double : IsDouble exact) : x.isFinite = true ∧ value x = exact := by
  obtain ⟨same, room⟩ := double
  rw [← same] at room
  exact ⟨computes.1 room, (computes.2 (computes.1 room)).trans same⟩

/-- What is computed lies between the same multiples of a place as the exact result. -/
theorem Computes.near {x : Float} {exact : ℚ} (computes : Computes x exact) (place : Int)
    (low : -1074 ≤ place) (high : place ≤ 971) (nonneg : 0 ≤ exact)
    (room : exact < (2 ^ 53 - 1) * 2 ^ place) :
    x.isFinite = true ∧ |value x - exact| ≤ 2 ^ place := by
  have place_pos : (0 : ℚ) < 2 ^ place := by positivity
  obtain ⟨steps, steps_eq⟩ := Int.eq_ofNat_of_zero_le
    (Int.floor_nonneg.mpr (div_nonneg nonneg place_pos.le))
  obtain ⟨first, last⟩ := Int.floor_eq_iff.mp steps_eq
  rw [Int.cast_natCast] at first last
  rw [le_div_iff₀ place_pos] at first
  rw [div_lt_iff₀ place_pos] at last
  have small : steps + 1 < 2 ^ 53 := by
    have less : (steps : ℚ) < 2 ^ 53 - 1 :=
      lt_of_mul_lt_mul_right (first.trans_lt room) place_pos.le
    have next : ((steps + 1 : Nat) : ℚ) < (2 ^ 53 : Nat) := by
      push_cast
      linarith
    exact_mod_cast next
  have next : ((steps + 1 : Nat) : ℚ) = steps + 1 := Nat.cast_succ steps
  obtain ⟨finite, above, below⟩ := computes.between
    (isDouble_whole steps place (by omega) low high)
    (isDouble_whole (steps + 1) place small low high) first (by rw [next]; exact last.le)
  refine ⟨finite, abs_le.mpr ?_⟩
  rw [next] at below
  constructor <;> linarith

/-- A fraction has fewer bits than a mantissa, so rounding it can be computed by counting. -/
theorem value_roundWith (direction : Bool → Direction) (x : Float) (negative : Bool)
    (mantissa : Nat) (exponent : Int) (parts : ofDouble x = .finite negative mantissa exponent)
    (small : exponent < 0 → (direction negative).apply mantissa exponent < 2 ^ 53) :
    (roundWith direction x).isFinite = true ∧ value (roundWith direction x) =
      ((sign negative).apply ((direction negative).apply mantissa exponent : Int) : Int) := by
  unfold roundWith
  rw [parts]
  simp only
  split
  · next whole =>
    constructor
    · exact isFinite_of_parts x negative mantissa exponent parts
    · rw [value_of_parts x negative mantissa exponent parts,
        ← apply_whole mantissa exponent _ whole, ← mul_one (Nat.cast _), ← apply_mul, mul_one]
  · next fraction =>
    obtain ⟨finite, counted⟩ := value_ofNat _ (small (by omega))
    cases negative with
    | false => exact ⟨finite, counted⟩
    | true =>
      obtain ⟨neg_finite, opposite⟩ := value_neg _ finite
      refine ⟨neg_finite, opposite.trans ?_⟩
      rw [counted]
      norm_cast

section Rounding

variable (x : Float) (finite : x.isFinite = true)

include finite

theorem value_truncate : (truncate x).isFinite = true ∧ value (truncate x) = cut (value x) := by
  obtain ⟨negative, mantissa, exponent, parts⟩ := parts_of_isFinite x finite
  have room : exponent < 0 → Direction.towardZero.apply mantissa exponent < 2 ^ 53 := by
    intro fraction
    rw [Direction.apply, if_neg (by omega)]
    exact (Nat.div_le_self _ _).trans_lt (storable_of_finite x _ _ _ parts).small
  rw [value_of_parts x negative mantissa exponent parts, cut_apply _ _ (by positivity),
    ← apply_towardZero]
  exact value_roundWith _ x negative mantissa exponent parts room

theorem value_round : (round x).isFinite = true ∧ ∃ negative,
    value x = ((sign negative).apply 1 : Int) * |value x| ∧
      value (round x) = ((sign negative).apply ⌊|value x| + 1 / 2⌋ : Int) := by
  obtain ⟨negative, mantissa, exponent, parts⟩ := parts_of_isFinite x finite
  have small := (storable_of_finite x _ _ _ parts).small
  have room : exponent < 0 → Direction.nearest.apply mantissa exponent < 2 ^ 53 := by
    intro fraction
    rw [Direction.apply, if_neg (by omega)]
    have unit_pos : 0 < twoTo (-exponent).toNat := Nat.two_pow_pos _
    apply (Nat.div_lt_iff_lt_mul (by omega)).mpr
    nlinarith
  obtain ⟨round_finite, rounded⟩ :=
    value_roundWith (fun _ => .nearest) x negative mantissa exponent parts room
  have size : |value x| = mantissa * 2 ^ exponent := by
    rw [value_of_parts x negative mantissa exponent parts, abs_apply_mul]
    exact abs_of_nonneg (by positivity)
  refine ⟨round_finite, negative, ?_, ?_⟩
  · rw [size]
    exact value_of_parts x negative mantissa exponent parts
  · rw [size, ← apply_nearest]
    exact rounded

theorem toByte_round (byte : Nat) (small : byte ≤ 255) (near : |value x - byte| < 1 / 2) :
    toByte (round x) = byte := by
  obtain ⟨round_finite, negative, value_eq, rounded⟩ := value_round x finite
  obtain ⟨above, below⟩ := abs_lt.mp near
  have whole : value (round x) = (byte : ℤ) := by
    rw [rounded]
    cases negative with
    | false =>
      have nonneg : value x = |value x| := value_eq.trans (one_mul _)
      have floor : ⌊|value x| + 1 / 2⌋ = (byte : ℤ) := by
        rw [Int.floor_eq_iff, ← nonneg]
        constructor <;> push_cast <;> linarith
      rw [floor]
      rfl
    | true =>
      have nonpos : value x = -|value x| := by simpa [sign, Sign.apply] using value_eq
      have size := abs_nonneg (value x)
      have none : byte = 0 := by
        have less : (byte : ℚ) < 1 := by linarith
        exact Nat.lt_one_iff.mp (by exact_mod_cast less)
      rw [none, Nat.cast_zero] at above
      have floor : ⌊|value x| + 1 / 2⌋ = 0 := by
        rw [Int.floor_eq_iff]
        constructor <;> push_cast <;> linarith
      rw [floor, none]
      rfl
  have counted := toByte_eq (round x) round_finite
  rw [whole, cut_intCast] at counted
  omega

end Rounding

/-- Numbers that are `gap` apart exactly are cut to whole numbers less than that apart by one at
most, also where they are rounded before. -/
theorem cut_apart (x y : Float) (a b : ℚ) (gap : ℤ) (first : Computes x a) (second : Computes y b)
    (x_finite : x.isFinite = true) (y_finite : y.isFinite = true) (apart : a + gap ≤ b)
    (low : (cut (value x) - 1).natAbs < 2 ^ 53)
    (high : (cut (value x) - 1 + gap).natAbs < 2 ^ 53) :
    cut (value x) - 1 + gap ≤ cut (value y) := by
  have above : ((cut (value x) - 1 : ℤ) : ℚ) < a := by
    by_contra below
    have rounded := nearest_mono (not_lt.mp below)
    rw [(isDouble_intCast _ low).1, ← first.2 x_finite] at rounded
    have less := lt_of_cut (value x)
    push_cast at rounded
    linarith
  apply le_cut
  rw [second.2 y_finite, ← (isDouble_intCast _ high).1]
  apply nearest_mono
  push_cast at above ⊢
  linarith

theorem toCell_truncate (x : Float) : toCell (truncate x) = toCell x := by
  cases finite : x.isFinite with
  | true =>
    obtain ⟨truncated, whole⟩ := value_truncate x finite
    rw [toCell_eq _ truncated, toCell_eq x finite, whole, cut_intCast]
  | false =>
    have same : truncate x = x := by
      unfold truncate roundWith
      rcases parts_of_special x finite with absent | ⟨negative, infinite⟩
      · rw [absent]
      · rw [infinite]
    rw [same]

end Cartograph.Number

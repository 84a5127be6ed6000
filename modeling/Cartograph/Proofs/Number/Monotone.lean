import Mathlib
import Cartograph.Proofs.Number.Nearest

/-! Rounding to the nearest double as a function on fractions, without a largest exponent. It keeps
the order, and fractions that are doubles stay what they are. -/

namespace Cartograph.Number

section Whole

/-- The nearest whole number, and the even one where two are equally near. -/
def nearestEven (x : ℚ) : ℤ :=
  if Int.fract x < 1 / 2 then ⌊x⌋
  else if 1 / 2 < Int.fract x then ⌊x⌋ + 1
  else ⌊x⌋ + ⌊x⌋ % 2

theorem nearestEven_range (x : ℚ) : ⌊x⌋ ≤ nearestEven x ∧ nearestEven x ≤ ⌊x⌋ + 1 := by
  unfold nearestEven
  split_ifs <;> omega

theorem nearestEven_mono {x y : ℚ} (order : x ≤ y) : nearestEven x ≤ nearestEven y := by
  rcases (Int.floor_le_floor order).eq_or_lt with same | less
  · have rest : Int.fract x ≤ Int.fract y := by
      rw [Int.fract, Int.fract, same]
      exact sub_le_sub_right order _
    unfold nearestEven
    rw [same]
    split_ifs <;> first | omega | linarith
  · have above := (nearestEven_range x).2
    have below := (nearestEven_range y).1
    omega

theorem nearestEven_intCast (whole : ℤ) : nearestEven whole = whole := by
  rw [nearestEven, Int.fract_intCast, if_pos (by norm_num), Int.floor_intCast]

theorem nearestEven_div (count unit : ℕ) (positive : 0 < unit) :
    nearestEven (count / unit) = nearestWhole count unit := by
  have unit_pos : (0 : ℚ) < unit := by exact_mod_cast positive
  have floor : ⌊(count / unit : ℚ)⌋ = (count / unit : ℕ) := by
    have whole := Rat.floor_intCast_div_natCast count unit
    rwa [Int.cast_natCast, ← Int.natCast_div] at whole
  have rest : Int.fract (count / unit : ℚ) = (count % unit : ℕ) / unit := by
    have split : (count : ℚ) = (count / unit * unit + count % unit : ℕ) :=
      congrArg Nat.cast (Nat.div_add_mod' count unit).symm
    rw [Int.fract, floor, eq_div_iff unit_pos.ne', sub_mul, div_mul_cancel₀ _ unit_pos.ne',
      Int.cast_natCast, sub_eq_iff_eq_add', split, Nat.cast_add, Nat.cast_mul]
  have below : Int.fract (count / unit : ℚ) < 1 / 2 ↔ 2 * (count % unit) < unit := by
    rw [rest, div_lt_div_iff₀ unit_pos two_pos, one_mul, mul_comm]
    exact_mod_cast Iff.rfl
  have above : 1 / 2 < Int.fract (count / unit : ℚ) ↔ unit < 2 * (count % unit) := by
    rw [rest, div_lt_div_iff₀ two_pos unit_pos, one_mul, mul_comm]
    exact_mod_cast Iff.rfl
  simp only [nearestEven, nearestWhole, below, above, floor]
  split_ifs <;> push_cast <;> rfl

end Whole

section Size

/-- The place of the last bit of the doubles near a positive fraction. -/
def lastPlace (size : ℚ) : ℤ := max (Int.log 2 size - 52) (-1074)

def nearestSize (size : ℚ) : ℚ := nearestEven (size / 2 ^ lastPlace size) * 2 ^ lastPlace size

theorem nearestSize_zero : nearestSize 0 = 0 := by
  have none_left : nearestEven 0 = 0 := nearestEven_intCast 0
  rw [nearestSize, zero_div, none_left, Int.cast_zero, zero_mul]

theorem nearestSize_nonneg (size : ℚ) (nonneg : 0 ≤ size) : 0 ≤ nearestSize size := by
  have count : 0 ≤ nearestEven (size / 2 ^ lastPlace size) := by
    rw [← nearestEven_intCast 0]
    exact nearestEven_mono (by rw [Int.cast_zero]; positivity)
  have count_cast : (0 : ℚ) ≤ nearestEven (size / 2 ^ lastPlace size) := by exact_mod_cast count
  exact mul_nonneg count_cast (by positivity)

variable {size larger : ℚ} (positive : 0 < size)

theorem size_lt : size < 2 ^ 53 * 2 ^ lastPlace size := by
  have next : size < 2 ^ (Int.log 2 size + 1) := by
    exact_mod_cast Int.lt_zpow_succ_log_self Nat.one_lt_two size
  calc size < 2 ^ (Int.log 2 size + 1) := next
    _ ≤ 2 ^ (53 + lastPlace size) := by
      apply zpow_le_zpow_right₀ one_le_two
      have := le_max_left (Int.log 2 size - 52) (-1074)
      rw [lastPlace]
      omega
    _ = 2 ^ 53 * 2 ^ lastPlace size := by
      rw [zpow_add₀ two_ne_zero]
      norm_num

theorem nearestSize_le : nearestSize size ≤ 2 ^ 53 * 2 ^ lastPlace size := by
  have count : nearestEven (size / 2 ^ lastPlace size) ≤ 2 ^ 53 := by
    rw [← nearestEven_intCast (2 ^ 53)]
    apply nearestEven_mono
    rw [div_le_iff₀ (by positivity)]
    exact_mod_cast size_lt.le
  exact mul_le_mul_of_nonneg_right (by exact_mod_cast count) (by positivity)

include positive

theorem le_size (normal : -1074 < lastPlace size) : 2 ^ 52 * 2 ^ lastPlace size ≤ size := by
  have place : lastPlace size = Int.log 2 size - 52 := by
    unfold lastPlace at normal ⊢
    omega
  calc (2 : ℚ) ^ 52 * 2 ^ lastPlace size = 2 ^ (52 + lastPlace size) := by
        rw [zpow_add₀ two_ne_zero]
        norm_num
    _ = 2 ^ Int.log 2 size := by rw [place, add_sub_cancel]
    _ ≤ size := by exact_mod_cast Int.zpow_log_le_self Nat.one_lt_two positive

theorem le_nearestSize (normal : -1074 < lastPlace size) :
    2 ^ 52 * 2 ^ lastPlace size ≤ nearestSize size := by
  have count : 2 ^ 52 ≤ nearestEven (size / 2 ^ lastPlace size) := by
    rw [← nearestEven_intCast (2 ^ 52)]
    apply nearestEven_mono
    rw [le_div_iff₀ (by positivity)]
    exact_mod_cast le_size positive normal
  exact mul_le_mul_of_nonneg_right (by exact_mod_cast count) (by positivity)

/-- Where the last place grows, a power of two lies between the results. -/
theorem nearestSize_mono (order : size ≤ larger) : nearestSize size ≤ nearestSize larger := by
  have larger_pos := positive.trans_le order
  have places : lastPlace size ≤ lastPlace larger :=
    max_le_max_right _ (sub_le_sub_right (Int.log_mono_right positive order) _)
  rcases places.eq_or_lt with same | less
  · have counts : nearestEven (size / 2 ^ lastPlace larger) ≤
        nearestEven (larger / 2 ^ lastPlace larger) := by
      apply nearestEven_mono
      gcongr
    rw [nearestSize, nearestSize, same]
    exact mul_le_mul_of_nonneg_right (by exact_mod_cast counts) (by positivity)
  · have normal : -1074 < lastPlace larger := (le_max_right _ _).trans_lt less
    calc nearestSize size ≤ 2 ^ 53 * 2 ^ lastPlace size := nearestSize_le
      _ = 2 ^ 52 * 2 ^ (lastPlace size + 1) := by
        rw [zpow_add₀ two_ne_zero]
        ring
      _ ≤ 2 ^ 52 * 2 ^ lastPlace larger := by
        gcongr
        · exact one_le_two
        · omega
      _ ≤ nearestSize larger := le_nearestSize larger_pos normal

end Size

theorem nearestEven_shifted (mantissa : ℕ) (place exponent : ℤ) (fine : place ≤ exponent) :
    nearestEven (mantissa * 2 ^ exponent / 2 ^ place) * 2 ^ place =
      (mantissa : ℚ) * 2 ^ exponent := by
  obtain ⟨steps, rfl⟩ := Int.le.dest fine
  have count : (mantissa : ℚ) * 2 ^ (place + (steps : ℤ)) / 2 ^ place =
      ((mantissa * 2 ^ steps : ℕ) : ℤ) := by
    rw [div_eq_iff (by positivity), zpow_add₀ two_ne_zero, zpow_natCast]
    push_cast
    ring
  rw [count, nearestEven_intCast, ← count, div_mul_cancel₀ _ (by positivity)]

theorem nearestSize_whole (mantissa : ℕ) (exponent : ℤ) (small : mantissa < 2 ^ 53)
    (low : -1074 ≤ exponent) : nearestSize (mantissa * 2 ^ exponent) = mantissa * 2 ^ exponent := by
  rcases Nat.eq_zero_or_pos mantissa with rfl | positive
  · rw [Nat.cast_zero, zero_mul, nearestSize_zero]
  · apply nearestEven_shifted
    have size_pos : (0 : ℚ) < mantissa * 2 ^ exponent := by positivity
    have below : (mantissa : ℚ) * 2 ^ exponent < 2 ^ (53 + exponent) := by
      rw [zpow_add₀ two_ne_zero]
      apply mul_lt_mul_of_pos_right _ (by positivity)
      exact_mod_cast small
    have log_lt : Int.log 2 ((mantissa : ℚ) * 2 ^ exponent) < 53 + exponent :=
      (Int.lt_zpow_iff_log_lt Nat.one_lt_two size_pos).mp (by exact_mod_cast below)
    rw [lastPlace]
    omega

/-- The double nearest to a fraction, were there no largest one. -/
def nearest (x : ℚ) : ℚ := if x < 0 then -nearestSize (-x) else nearestSize x

theorem nearest_of_nonneg (x : ℚ) (nonneg : 0 ≤ x) : nearest x = nearestSize x :=
  if_neg (not_lt.mpr nonneg)

theorem nearest_neg (x : ℚ) : nearest (-x) = -nearest x := by
  rcases lt_trichotomy x 0 with negative | rfl | positive
  · rw [nearest_of_nonneg _ (neg_nonneg.mpr negative.le), nearest, if_pos negative, neg_neg]
  · rw [neg_zero, nearest_of_nonneg 0 le_rfl, nearestSize_zero, neg_zero]
  · rw [nearest_of_nonneg x positive.le, nearest, if_pos (neg_lt_zero.mpr positive), neg_neg]

theorem nearest_nonneg (x : ℚ) (nonneg : 0 ≤ x) : 0 ≤ nearest x := by
  rw [nearest_of_nonneg x nonneg]
  exact nearestSize_nonneg x nonneg

theorem nearest_mono {x y : ℚ} (order : x ≤ y) : nearest x ≤ nearest y := by
  have nonneg_mono {x y : ℚ} (nonneg : 0 ≤ x) (order : x ≤ y) : nearest x ≤ nearest y := by
    rcases nonneg.eq_or_lt with rfl | positive
    · rw [nearest_of_nonneg 0 le_rfl, nearestSize_zero]
      exact nearest_nonneg y order
    · rw [nearest_of_nonneg x nonneg, nearest_of_nonneg y (nonneg.trans order)]
      exact nearestSize_mono positive order
  rcases le_total 0 x with nonneg | nonpos
  · exact nonneg_mono nonneg order
  · rcases le_total 0 y with y_nonneg | y_nonpos
    · have below : 0 ≤ -nearest x := by
        rw [← nearest_neg]
        exact nearest_nonneg _ (neg_nonneg.mpr nonpos)
      linarith [nearest_nonneg y y_nonneg]
    · have turned := nonneg_mono (neg_nonneg.mpr y_nonpos) (neg_le_neg order)
      rw [nearest_neg, nearest_neg] at turned
      exact neg_le_neg_iff.mp turned

end Cartograph.Number

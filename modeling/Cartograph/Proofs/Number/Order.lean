import Mathlib
import Cartograph.Number.Rank
import Cartograph.Proofs.Number.Pattern

/-! The order of numbers. The doubles from zero on are counted in both directions, and the
comparisons of the language compare these counts. The total order of patterns refines it. -/

namespace Cartograph.Number

open Float.Model Float.Model.UnpackedFloat

/-- How many doubles a number is away from zero, both zeros being one. -/
def rung : UnpackedFloat → Int
  | .notANumber => 0
  | .infinity side => side.apply (2047 * 2 ^ 52)
  | .zero _ => 0
  | .finite side mantissa exponent _ => side.apply ((exponent + 1074) * 2 ^ 52 + mantissa)

def Canonical : UnpackedFloat → Prop
  | .notANumber => False
  | .infinity _ => True
  | .zero _ => True
  | .finite _ mantissa exponent _ => Storable mantissa exponent

theorem then_compare (first second : Nat) (place other : Int) (left : Storable first place)
    (right : Storable second other) :
    (compare place other).then (compare first second) =
      compare ((place + 1074) * 2 ^ 52 + first) ((other + 1074) * 2 ^ 52 + second) := by
  obtain ⟨small, low, -, full⟩ := left
  obtain ⟨small', low', -, full'⟩ := right
  rcases lt_trichotomy place other with less | rfl | more
  · rw [compare_lt_iff_lt.mpr less, Ordering.lt_then]
    exact (compare_lt_iff_lt.mpr (by omega)).symm
  · rw [compare_eq_iff_eq.mpr rfl, Ordering.eq_then]
    rcases lt_trichotomy first second with less | rfl | more
    · rw [compare_lt_iff_lt.mpr less]
      exact (compare_lt_iff_lt.mpr (by omega)).symm
    · rw [compare_eq_iff_eq.mpr rfl, compare_eq_iff_eq.mpr rfl]
    · rw [compare_gt_iff_gt.mpr more]
      exact (compare_gt_iff_gt.mpr (by omega)).symm
  · rw [compare_gt_iff_gt.mpr more, Ordering.gt_then]
    exact (compare_gt_iff_gt.mpr (by omega)).symm

theorem swap_compare (first second : Int) :
    (compare first second).swap = compare (-first) (-second) := by
  rcases lt_trichotomy first second with less | rfl | more
  · rw [compare_lt_iff_lt.mpr less]
    exact (compare_gt_iff_gt.mpr (by omega)).symm
  · rw [compare_eq_iff_eq.mpr rfl, compare_eq_iff_eq.mpr rfl]
    rfl
  · rw [compare_gt_iff_gt.mpr more]
    exact (compare_lt_iff_lt.mpr (by omega)).symm

theorem rung_bounds (mantissa : Nat) (exponent : Int) (positive : 0 < mantissa)
    (storable : Storable mantissa exponent) :
    0 < (exponent + 1074) * 2 ^ 52 + mantissa ∧
      (exponent + 1074) * 2 ^ 52 + mantissa < 2047 * 2 ^ 52 := by
  obtain ⟨small, low, high, full⟩ := storable
  omega

section Compare

variable (first second : UnpackedFloat)

theorem compare_of_lt (result : first.compare second = some .lt)
    (less : rung first < rung second) :
    first.compare second = some (compare (rung first) (rung second)) := by
  rw [result, compare_lt_iff_lt.mpr less]

theorem compare_of_gt (result : first.compare second = some .gt)
    (more : rung second < rung first) :
    first.compare second = some (compare (rung first) (rung second)) := by
  rw [result, compare_gt_iff_gt.mpr more]

theorem compare_unpacked (left : Canonical first) (right : Canonical second) :
    first.compare second = some (compare (rung first) (rung second)) := by
  cases first with
  | notANumber => exact left.elim
  | infinity side =>
    cases second with
    | notANumber => exact right.elim
    | infinity other => cases side <;> cases other <;> rfl
    | zero other => cases side <;> rfl
    | finite other mantissa exponent positive =>
      have bounds := rung_bounds mantissa exponent positive right
      cases side with
      | positive =>
        apply compare_of_gt _ _ rfl
        cases other <;> simp only [rung, Sign.apply] <;> omega
      | negative =>
        apply compare_of_lt _ _ rfl
        cases other <;> simp only [rung, Sign.apply] <;> omega
  | zero side =>
    cases second with
    | notANumber => exact right.elim
    | infinity other => cases other <;> rfl
    | zero other => rfl
    | finite other mantissa exponent positive =>
      have bounds := rung_bounds mantissa exponent positive right
      cases other with
      | positive => exact compare_of_lt _ _ rfl bounds.1
      | negative => exact compare_of_gt _ _ rfl (by simp only [rung, Sign.apply]; omega)
  | finite side mantissa exponent positive =>
    have bounds := rung_bounds mantissa exponent positive left
    cases second with
    | notANumber => exact right.elim
    | infinity other =>
      cases other with
      | positive =>
        apply compare_of_lt
        · cases side <;> rfl
        · cases side <;> simp only [rung, Sign.apply] <;> omega
      | negative =>
        apply compare_of_gt
        · cases side <;> rfl
        · cases side <;> simp only [rung, Sign.apply] <;> omega
    | zero other =>
      cases side with
      | positive => exact compare_of_gt _ _ rfl bounds.1
      | negative => exact compare_of_lt _ _ rfl (by simp only [rung, Sign.apply]; omega)
    | finite other mantissa' exponent' positive' =>
      have bounds' := rung_bounds mantissa' exponent' positive' right
      have same := then_compare mantissa mantissa' exponent exponent' left right
      cases side with
      | positive =>
        cases other with
        | positive => exact congrArg some same
        | negative => exact compare_of_gt _ _ rfl (by simp only [rung, Sign.apply]; omega)
      | negative =>
        cases other with
        | positive => exact compare_of_lt _ _ rfl (by simp only [rung, Sign.apply]; omega)
        | negative => exact congrArg some ((congrArg Ordering.swap same).trans (swap_compare _ _))

end Compare

def ordinal (x : Float) : Int := rung (ofDouble x).unpacked

theorem isNaN_eq (x : Float) : x.isNaN = (ofDouble x).unpacked.isNaN := by
  rw [← unpack_eq_ofDouble]
  rfl

theorem canonical_of_number (x : Float) (number : x.isNaN = false) :
    Canonical (ofDouble x).unpacked := by
  rw [isNaN_eq] at number
  cases parts : ofDouble x with
  | notANumber =>
    rw [parts] at number
    cases number
  | infinite negative => exact trivial
  | finite negative mantissa exponent =>
    rcases Nat.eq_zero_or_pos mantissa with rfl | positive
    · exact trivial
    · rw [unpacked_finite negative mantissa exponent positive]
      exact storable_of_finite x negative mantissa exponent parts

theorem number_of_isFinite (x : Float) (finite : x.isFinite = true) : x.isNaN = false := by
  rw [Float.isNaN_eq_decide_eq_nan, decide_eq_false_iff_not]
  rintro rfl
  exact absurd finite (by decide +kernel)

theorem isFinite_iff (x : Float) (number : x.isNaN = false) :
    x.isFinite = true ↔ -(2047 * 2 ^ 52) < ordinal x ∧ ordinal x < 2047 * 2 ^ 52 := by
  have parts : x.isFinite = (ofDouble x).unpacked.isFinite := by
    rw [← unpack_eq_ofDouble]
    rfl
  have canonical := canonical_of_number x number
  rw [parts]
  unfold ordinal
  cases shape : (ofDouble x).unpacked with
  | notANumber =>
    rw [shape] at canonical
    exact canonical.elim
  | infinity side => cases side <;> decide
  | zero side => cases side <;> decide
  | finite side mantissa exponent positive =>
    rw [shape] at canonical
    have bounds := rung_bounds mantissa exponent positive canonical
    have finite : (finite side mantissa exponent positive).isFinite = true := rfl
    rw [finite, eq_self, true_iff]
    cases side <;> simp only [rung, Sign.apply] <;> omega

theorem numbers_of_compare (x y : Float) (order : Ordering)
    (result : x.toModel.unpack.compare y.toModel.unpack = some order) :
    x.isNaN = false ∧ y.isNaN = false := by
  change x.toModel.unpack.isNaN = false ∧ y.toModel.unpack.isNaN = false
  cases left : x.toModel.unpack with
  | notANumber =>
    rw [left] at result
    cases result
  | infinity | zero | finite =>
    cases right : y.toModel.unpack with
    | notANumber =>
      rw [left, right] at result
      cases result
    | infinity | zero | finite => exact ⟨rfl, rfl⟩

theorem numbers_of_beq (x y : Float) (equal : (x == y) = true) :
    x.isNaN = false ∧ y.isNaN = false := by
  change (x.toModel.unpack.compare y.toModel.unpack == some .eq) = true at equal
  exact numbers_of_compare x y .eq (eq_of_beq equal)

theorem numbers_of_le (x y : Float) (le : x ≤ y) : x.isNaN = false ∧ y.isNaN = false := by
  change decide ((x.toModel.unpack.compare y.toModel.unpack).any (·.isLE) = true) = true at le
  obtain ⟨order, result, -⟩ := (Option.any_eq_true _ _).mp (of_decide_eq_true le)
  exact numbers_of_compare x y order result

theorem rung_sign (negative : Bool) (mantissa : Nat) (exponent : Int)
    (smallest : mantissa = 0 → exponent = -1074) :
    rung (Binary.finite negative mantissa exponent).unpacked =
      (sign negative).apply ((exponent + 1074) * 2 ^ 52 + mantissa) := by
  rcases Nat.eq_zero_or_pos mantissa with rfl | positive
  · rw [smallest rfl]
    cases negative <;> rfl
  · rw [unpacked_finite negative mantissa exponent positive]
    rfl

theorem apply_sign (bits : Nat) (magnitude : Int) :
    (sign (bits / 9223372036854775808 % 2 == 1)).apply magnitude =
      if bits / 9223372036854775808 % 2 = 1 then -magnitude else magnitude := by
  by_cases negative : bits / 9223372036854775808 % 2 = 1
  · rw [if_pos negative, negative]
    rfl
  · have positive : (bits / 9223372036854775808 % 2 == 1) = false := by simpa using negative
    rw [if_neg negative, positive]
    rfl

theorem ordinal_eq (x : Float) (number : x.isNaN = false) :
    ordinal x = if x.toBits.toNat < 2 ^ 63 then (x.toBits.toNat : Int)
      else 2 ^ 63 - x.toBits.toNat := by
  have bound := x.toBits.toNat_lt
  rw [isNaN_eq] at number
  unfold ordinal
  unfold ofDouble at number ⊢
  generalize x.toBits.toNat = bits at bound number ⊢
  rw [decode_double] at number ⊢
  by_cases special : bits / 4503599627370496 % 2048 = 2047
  · rw [if_pos special] at number ⊢
    by_cases whole : bits % 4503599627370496 = 0
    · rw [if_pos whole]
      change (sign _).apply (2047 * 2 ^ 52) = _
      rw [apply_sign]
      split <;> split <;> omega
    · rw [if_neg whole] at number
      cases number
  · rw [if_neg special]
    by_cases tiny : bits / 4503599627370496 % 2048 = 0
    · rw [if_pos tiny, rung_sign _ _ _ (fun _ => rfl), apply_sign]
      split <;> split <;> omega
    · rw [if_neg tiny, rung_sign _ _ _ (fun zero => by omega), apply_sign]
      split <;> split <;> omega

theorem place_cases (x : Float) (number : x.isNaN = false) :
    0 ≤ ordinal x ∧ (Rank.ofFloat x).place = ordinal x ∨
      ordinal x ≤ 0 ∧ (Rank.ofFloat x).place = ordinal x - 1 := by
  have place_eq : (Rank.ofFloat x).place = if x.toBits.toNat < 2 ^ 63 then (x.toBits.toNat : Int)
      else 2 ^ 63 - 1 - x.toBits.toNat := rfl
  rw [place_eq, ordinal_eq x number]
  split
  · left
    omega
  · right
    omega

theorem isLE_compare_iff (x y : Float) :
    (compare (Rank.ofFloat x) (Rank.ofFloat y)).isLE = true ↔
      (Rank.ofFloat x).place ≤ (Rank.ofFloat y).place := by
  rw [← compare_le_iff_le]
  exact Ordering.isLE_iff_ne_gt

section Numbers

variable (x y : Float) (left : x.isNaN = false) (right : y.isNaN = false)

include left right

theorem compare_eq :
    x.toModel.unpack.compare y.toModel.unpack = some (compare (ordinal x) (ordinal y)) := by
  rw [unpack_eq_ofDouble, unpack_eq_ofDouble]
  exact compare_unpacked _ _ (canonical_of_number x left) (canonical_of_number y right)

theorem lt_iff : x < y ↔ ordinal x < ordinal y := by
  change decide ((x.toModel.unpack.compare y.toModel.unpack == some .lt) = true) = true ↔ _
  rw [compare_eq x y left right, ← compare_lt_iff_lt]
  simp

theorem le_iff : x ≤ y ↔ ordinal x ≤ ordinal y := by
  change decide ((x.toModel.unpack.compare y.toModel.unpack).any (·.isLE) = true) = true ↔ _
  rw [compare_eq x y left right, decide_eq_true_eq, Option.any_some, ← compare_le_iff_le]
  exact Ordering.isLE_iff_ne_gt

theorem beq_iff : (x == y) = true ↔ ordinal x = ordinal y := by
  change (x.toModel.unpack.compare y.toModel.unpack == some .eq) = true ↔ _
  rw [compare_eq x y left right, ← compare_eq_iff_eq]
  simp

/-- The total order puts no larger number before a smaller one. -/
theorem ordinal_le_of_rank
    (before : (compare (Rank.ofFloat x) (Rank.ofFloat y)).isLE = true) :
    ordinal x ≤ ordinal y := by
  have places := (isLE_compare_iff x y).mp before
  have first := place_cases x left
  have second := place_cases y right
  omega

end Numbers

/-- What is no number does not even equal itself. -/
instance partialEquivBEq : PartialEquivBEq Float where
  symm {x y} equal := by
    obtain ⟨left, right⟩ := numbers_of_beq x y equal
    rw [beq_iff x y left right] at equal
    exact (beq_iff y x right left).mpr equal.symm
  trans {x y z} first second := by
    obtain ⟨left, middle⟩ := numbers_of_beq x y first
    obtain ⟨-, right⟩ := numbers_of_beq y z second
    rw [beq_iff x y left middle] at first
    rw [beq_iff y z middle right] at second
    exact (beq_iff x z left right).mpr (first.trans second)

theorem isFinite_of_beq (x y : Float) (equal : (x == y) = true) : x.isFinite = y.isFinite := by
  obtain ⟨left, right⟩ := numbers_of_beq x y equal
  rw [beq_iff x y left right] at equal
  rw [Bool.eq_iff_iff, isFinite_iff x left, isFinite_iff y right, equal]

namespace Rank

theorem isLE_iff (a b : Rank) : (compare a b).isLE = true ↔ a.place ≤ b.place := by
  rw [← compare_le_iff_le]
  exact Ordering.isLE_iff_ne_gt

theorem compare_eq_iff (a b : Rank) : compare a b = .eq ↔ a.place = b.place :=
  compare_eq_iff_eq (a := a.place) (b := b.place)

theorem compare_swap (a b : Rank) : (compare a b).swap = compare b a :=
  (Std.OrientedOrd.eq_swap (a := b.place) (b := a.place)).symm

theorem place_injective : Function.Injective place := by
  intro a b same
  have left := a.bits.toNat_lt
  have right := b.bits.toNat_lt
  unfold place twoTo at same
  have bits : a.bits.toNat = b.bits.toNat := by
    split at same <;> split at same <;> omega
  exact congrArg Rank.mk (UInt64.toNat_inj.mp bits)

theorem compareAll_swap (as bs : List Rank) : (compareAll as bs).swap = compareAll bs as := by
  induction as generalizing bs with
  | nil => cases bs <;> rfl
  | cons a as later =>
    cases bs with
    | nil => rfl
    | cons b bs => rw [compareAll, compareAll, Ordering.swap_then, compare_swap, later]

theorem compareAll_eq_iff (as bs : List Rank) (same : as.length = bs.length) :
    compareAll as bs = .eq ↔ as = bs := by
  induction as generalizing bs with
  | nil => simp [compareAll, List.length_eq_zero_iff.mp same.symm]
  | cons a as later =>
    cases bs with
    | nil => cases same
    | cons b bs =>
      rw [compareAll, Ordering.then_eq_eq, compare_eq_iff, place_injective.eq_iff,
        later bs (Nat.succ.inj same), List.cons.injEq]

theorem isLE_compareAll_cons (a b : Rank) (as bs : List Rank) :
    (compareAll (a :: as) (b :: bs)).isLE = true ↔
      a.place < b.place ∨ a.place = b.place ∧ (compareAll as bs).isLE = true := by
  have step : compare a b = compare a.place b.place := rfl
  rw [compareAll, Ordering.isLE_then_iff_or, step, compare_lt_iff_lt, compare_eq_iff_eq]

theorem isLE_compareAll_total (as bs : List Rank) :
    (compareAll as bs).isLE = true ∨ (compareAll bs as).isLE = true := by
  induction as generalizing bs with
  | nil => exact .inl rfl
  | cons a as later =>
    cases bs with
    | nil => exact .inl rfl
    | cons b bs =>
      rw [isLE_compareAll_cons, isLE_compareAll_cons]
      rcases lt_trichotomy a.place b.place with less | same | more
      · exact .inl (.inl less)
      · exact (later bs).imp (fun rest => .inr ⟨same, rest⟩) fun rest => .inr ⟨same.symm, rest⟩
      · exact .inr (.inl more)

/-- Rows of different lengths are not in an order: the shorter one counts as equal. -/
theorem isLE_compareAll_trans (as bs cs : List Rank) (same : as.length = bs.length)
    (first : (compareAll as bs).isLE = true) (second : (compareAll bs cs).isLE = true) :
    (compareAll as cs).isLE = true := by
  induction as generalizing bs cs with
  | nil => rfl
  | cons a as later =>
    cases bs with
    | nil => cases same
    | cons b bs =>
      cases cs with
      | nil => rfl
      | cons c cs =>
        rw [isLE_compareAll_cons] at first second ⊢
        rcases first with less | ⟨equal, rest⟩
        · rcases second with less' | ⟨equal', -⟩
          · exact .inl (less.trans less')
          · exact .inl (less.trans_eq equal')
        · rcases second with less' | ⟨equal', rest'⟩
          · exact .inl (equal.trans_lt less')
          · exact .inr ⟨equal.trans equal', later bs cs (Nat.succ.inj same) rest rest'⟩

theorem middle_eq_ofFloat (a b : Rank) (number : (middle a b).isNotANumber = false) :
    ∃ value : Float, value.isNaN = false ∧ middle a b = ofFloat value := by
  unfold middle at number ⊢
  split at number
  · next absent => exact absurd absent (by simp [number])
  · next left =>
    rw [if_neg left]
    split at number
    · next absent => exact absurd absent (by simp [number])
    · next right =>
      rw [if_neg right]
      simp only at number ⊢
      split at number
      · exact absurd number (by decide +kernel)
      · next value => exact ⟨_, by simpa using value, if_neg value⟩

end Rank

end Cartograph.Number

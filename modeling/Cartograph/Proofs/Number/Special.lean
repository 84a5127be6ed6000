import Cartograph.Number.Rounding
import Cartograph.Proofs.Number.Comparison
import Cartograph.Proofs.Number.Operations

/-! What is not a finite number, in arithmetic and in the choice of the smaller or larger of two
numbers; and bounds that hold of results unless they are no number. -/

namespace Cartograph.Number

open Float.Model Float.Model.UnpackedFloat

theorem unpack_notANumber :
    UnpackedFloat.unpack .binary64 (UnpackedFloat.pack .binary64 .notANumber) = .notANumber := rfl

theorem unpack_infinity (side : Sign) :
    UnpackedFloat.unpack .binary64 (UnpackedFloat.pack .binary64 (.infinity side)) =
      .infinity side := by
  cases side <;> rfl

theorem isNaN_iff (x : Float) : x.isNaN = true ↔ x.toModel.unpack = .notANumber := by
  change x.toModel.unpack.isNaN = true ↔ _
  cases x.toModel.unpack <;> simp [UnpackedFloat.isNaN]

section Arithmetic

variable (x y : Float)

theorem nan_of_model (x : Float) (result : UnpackedFloat) (absent : result = .notANumber)
    (packed : x.toModel.unpack =
      UnpackedFloat.unpack .binary64 (UnpackedFloat.pack .binary64 result)) : x.isNaN = true := by
  rw [isNaN_iff, packed, absent, unpack_notANumber]

section Absorbing

variable (operation : UnpackedFloat → UnpackedFloat → UnpackedFloat)
  (left : ∀ b, operation .notANumber b = .notANumber)
  (right : ∀ a, operation a .notANumber = .notANumber)

include left right

theorem nan_of_operand (result : Float) (absent : x.isNaN = true ∨ y.isNaN = true)
    (packed : result.toModel.unpack = UnpackedFloat.unpack .binary64
      (UnpackedFloat.pack .binary64 (operation x.toModel.unpack y.toModel.unpack))) :
    result.isNaN = true := by
  have none_left : operation x.toModel.unpack y.toModel.unpack = .notANumber := by
    rcases absent with first | second
    · rw [(isNaN_iff x).mp first, left]
    · rw [(isNaN_iff y).mp second, right]
  exact nan_of_model _ _ none_left packed

end Absorbing

theorem nan_add (absent : x.isNaN = true ∨ y.isNaN = true) : (x + y).isNaN = true :=
  nan_of_operand x y (.add .binary64) (fun _ => by rw [UnpackedFloat.add])
    (fun a => by cases a <;> rfl) _ absent rfl

theorem nan_sub (absent : x.isNaN = true ∨ y.isNaN = true) : (x - y).isNaN = true :=
  nan_of_operand x y (.sub .binary64) (fun _ => by rw [UnpackedFloat.sub])
    (fun a => by cases a <;> rfl) _ absent rfl

theorem nan_div (absent : x.isNaN = true ∨ y.isNaN = true) : (x / y).isNaN = true :=
  nan_of_operand x y (.div .binary64) (fun _ => by rw [UnpackedFloat.div])
    (fun a => by cases a <;> rfl) _ absent rfl

theorem number_add (left : x.isFinite = true) (right : y.isFinite = true) :
    (x + y).isNaN = false := by
  have settled := (add_near _ _ (settled_of_isFinite x left) (settled_of_isFinite y right)).1
  apply isNaN_unpack_pack
  cases sum : UnpackedFloat.add .binary64 x.toModel.unpack y.toModel.unpack with
  | notANumber | infinity =>
    rw [sum] at settled
    exact settled.elim
  | zero | finite => rfl

theorem special_cases (special : x.isFinite = false) :
    x.toModel.unpack = .notANumber ∨ ∃ side, x.toModel.unpack = .infinity side := by
  change x.toModel.unpack.isFinite = false at special
  cases shape : x.toModel.unpack with
  | notANumber => exact .inl rfl
  | infinity side => exact .inr ⟨side, rfl⟩
  | zero | finite =>
    rw [shape] at special
    cases special

theorem isFinite_of_parts (negative : Bool) (mantissa : Nat) (exponent : Int)
    (parts : ofDouble x = .finite negative mantissa exponent) : x.isFinite = true := by
  change x.toModel.unpack.isFinite = true
  rw [unpack_eq_ofDouble, parts, Binary.unpacked]
  split <;> rfl

theorem parts_of_special (special : x.isFinite = false) :
    ofDouble x = .notANumber ∨ ∃ negative, ofDouble x = .infinite negative := by
  cases parts : ofDouble x with
  | notANumber => exact .inl rfl
  | infinite negative => exact .inr ⟨negative, rfl⟩
  | finite negative mantissa exponent =>
    rw [isFinite_of_parts x negative mantissa exponent parts] at special
    cases special

theorem special_sub (a b : UnpackedFloat) (special : a.isFinite = false ∨ b.isFinite = false) :
    UnpackedFloat.sub .binary64 a b = .notANumber ∨
      ∃ side, UnpackedFloat.sub .binary64 a b = .infinity side := by
  cases a with
  | notANumber => exact .inl (by rw [UnpackedFloat.sub])
  | infinity side =>
    cases b with
    | notANumber => exact .inl rfl
    | infinity other =>
      rw [UnpackedFloat.sub]
      split
      · exact .inr ⟨side, rfl⟩
      · exact .inl rfl
    | zero | finite => exact .inr ⟨side, rfl⟩
  | zero | finite =>
    cases b with
    | notANumber => exact .inl rfl
    | infinity other => exact .inr ⟨-other, rfl⟩
    | zero | finite => simp [UnpackedFloat.isFinite] at special

theorem finite_of_sub (finite : (x - y).isFinite = true) :
    x.isFinite = true ∧ y.isFinite = true := by
  change (UnpackedFloat.unpack .binary64 (UnpackedFloat.pack .binary64
    (.sub .binary64 x.toModel.unpack y.toModel.unpack))).isFinite = true at finite
  by_contra special
  rw [not_and_or, Bool.not_eq_true, Bool.not_eq_true] at special
  rcases special_sub x.toModel.unpack y.toModel.unpack special with absent | ⟨side, infinite⟩
  · rw [absent] at finite
    exact absurd finite (by decide)
  · rw [infinite, unpack_infinity] at finite
    cases finite

theorem infinite_div (side other : Sign) (mantissa : Nat) (exponent : Int)
    (positive : 0 < mantissa) (infinite : x.toModel.unpack = .infinity side)
    (divisor : y.toModel.unpack = .finite other mantissa exponent positive) :
    (x / y).toModel.unpack = .infinity (side / other) := by
  have quotient : (x / y).toModel.unpack = UnpackedFloat.unpack .binary64
      (UnpackedFloat.pack .binary64 (.div .binary64 x.toModel.unpack y.toModel.unpack)) := rfl
  rw [quotient, infinite, divisor, UnpackedFloat.div, unpack_infinity]

theorem nan_of_infinite (side other : Sign) (part : y.toModel.unpack = .infinity side)
    (z : Float) (divisor : z.toModel.unpack = .infinity other) : ((x + y) / z).isNaN = true := by
  have sum : UnpackedFloat.add .binary64 x.toModel.unpack (.infinity side) = .notANumber ∨
      ∃ more, UnpackedFloat.add .binary64 x.toModel.unpack (.infinity side) = .infinity more := by
    cases x.toModel.unpack with
    | notANumber => exact .inl (by rw [UnpackedFloat.add])
    | infinity first =>
      rw [UnpackedFloat.add]
      split
      · exact .inr ⟨first, rfl⟩
      · exact .inl rfl
    | zero | finite => exact .inr ⟨side, rfl⟩
  rw [← part] at sum
  rcases sum with absent | ⟨more, infinite⟩
  · exact nan_div _ _ (.inl (nan_of_model _ _ absent rfl))
  · refine nan_of_model _ (.div .binary64 (x + y).toModel.unpack z.toModel.unpack) ?_ rfl
    have total : (x + y).toModel.unpack = .infinity more := by
      rw [← unpack_infinity more, ← infinite]
      rfl
    rw [total, divisor, UnpackedFloat.div]

end Arithmetic

theorem ordinal_range (x : Float) (number : x.isNaN = false) :
    -(2047 * 2 ^ 52) ≤ ordinal x ∧ ordinal x ≤ 2047 * 2 ^ 52 := by
  have canonical := canonical_of_number x number
  unfold ordinal
  cases shape : (ofDouble x).unpacked with
  | notANumber =>
    rw [shape] at canonical
    exact canonical.elim
  | infinity side => cases side <;> decide
  | zero side => cases side <;> decide
  | finite side mantissa exponent positive =>
    rw [shape] at canonical
    have bounds := rung_bounds mantissa exponent positive canonical
    cases side <;> simp only [rung, Sign.apply] <;> omega

section Extremes

variable (x y : Float)

theorem beq_self_iff : (x == x) = true ↔ x.isNaN = false := by
  constructor
  · exact fun itself => (numbers_of_beq x x itself).1
  · exact fun number => (beq_iff x x number number).mpr rfl

theorem numbers_of_lt (less : x < y) : x.isNaN = false ∧ y.isNaN = false := by
  change decide ((x.toModel.unpack.compare y.toModel.unpack == some .lt) = true) = true at less
  exact numbers_of_compare x y .lt (eq_of_beq (of_decide_eq_true less))

theorem infinite_of_lt (less : x < y) (special : y.isFinite = false) :
    ofDouble y = .infinite false := by
  obtain ⟨x_number, y_number⟩ := numbers_of_lt x y less
  have lowest := (ordinal_range x x_number).1
  rw [lt_iff x y x_number y_number] at less
  rcases parts_of_special y special with absent | ⟨negative, infinite⟩
  · rw [isNaN_eq, absent] at y_number
    cases y_number
  · cases negative with
    | false => exact infinite
    | true =>
      have least : ordinal y = -(2047 * 2 ^ 52) := by
        rw [ordinal, infinite]
        rfl
      omega

theorem least_cases :
    (x.isNaN = false → (least x y).isNaN = false ∧ ordinal (least x y) ≤ ordinal x) ∧
      (y.isNaN = false → (least x y).isNaN = false ∧ ordinal (least x y) ≤ ordinal y) := by
  unfold least
  split
  · next itself =>
    have number := (beq_self_iff x).mp itself
    split
    · next less =>
      obtain ⟨y_number, -⟩ := numbers_of_lt y x less
      rw [lt_iff y x y_number number] at less
      exact ⟨fun _ => ⟨y_number, less.le⟩, fun _ => ⟨y_number, le_rfl⟩⟩
    · next not_less =>
      refine ⟨fun _ => ⟨number, le_rfl⟩, fun y_number => ⟨number, ?_⟩⟩
      rwa [lt_iff y x y_number number, not_lt] at not_less
  · next absent =>
    rw [beq_self_iff] at absent
    exact ⟨fun number => absurd number absent, fun number => ⟨number, le_rfl⟩⟩

theorem greatest_cases :
    (x.isNaN = false → (greatest x y).isNaN = false ∧ ordinal x ≤ ordinal (greatest x y)) ∧
      (y.isNaN = false → (greatest x y).isNaN = false ∧ ordinal y ≤ ordinal (greatest x y)) := by
  unfold greatest
  split
  · next itself =>
    have number := (beq_self_iff x).mp itself
    split
    · next less =>
      obtain ⟨-, y_number⟩ := numbers_of_lt x y less
      rw [lt_iff x y number y_number] at less
      exact ⟨fun _ => ⟨y_number, less.le⟩, fun _ => ⟨y_number, le_rfl⟩⟩
    · next not_less =>
      refine ⟨fun _ => ⟨number, le_rfl⟩, fun y_number => ⟨number, ?_⟩⟩
      rwa [lt_iff x y number y_number, not_lt] at not_less
  · next absent =>
    rw [beq_self_iff] at absent
    exact ⟨fun number => absurd number absent, fun number => ⟨number, le_rfl⟩⟩

end Extremes

/-- No number, or a finite one between two bounds. -/
def Amid (low high : ℚ) (x : Float) : Prop :=
  x.isNaN = true ∨ x.isFinite = true ∧ low ≤ value x ∧ value x ≤ high

namespace Amid

variable {x y : Float} {low high : ℚ} {a b c d : ℚ}

theorem mono (amid : Amid a b x) (above : low ≤ a) (below : b ≤ high) : Amid low high x := by
  rcases amid with absent | ⟨finite, first, last⟩
  · exact .inl absent
  · exact .inr ⟨finite, above.trans first, last.trans below⟩

variable (first : Amid a b x) (second : Amid c d y) (low_double : IsDouble low)
  (high_double : IsDouble high)

include first second low_double high_double

theorem add (above : low ≤ a + c) (below : b + d ≤ high) : Amid low high (x + y) := by
  rcases first with absent | ⟨x_finite, x_low, x_high⟩
  · exact .inl (nan_add x y (.inl absent))
  · rcases second with absent | ⟨y_finite, y_low, y_high⟩
    · exact .inl (nan_add x y (.inr absent))
    · exact .inr ((add_computes x y x_finite y_finite).between low_double high_double
        (by linarith) (by linarith))

theorem sub (above : low ≤ a - d) (below : b - c ≤ high) : Amid low high (x - y) := by
  rcases first with absent | ⟨x_finite, x_low, x_high⟩
  · exact .inl (nan_sub x y (.inl absent))
  · rcases second with absent | ⟨y_finite, y_low, y_high⟩
    · exact .inl (nan_sub x y (.inr absent))
    · exact .inr ((sub_computes x y x_finite y_finite).between low_double high_double
        (by linarith) (by linarith))

end Amid

end Cartograph.Number

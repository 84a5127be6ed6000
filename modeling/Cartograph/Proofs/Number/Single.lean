import Cartograph.Number.Rounding
import Cartograph.Proofs.Number.Whole

/-! Single-precision arithmetic on numbers up to a thousand, which is exact enough for rounding to
bytes. -/

namespace Cartograph.Number

open Float.Model Float.Model.UnpackedFloat

def singleValue (x : Float32) : ℚ := rational x.toModel.unpack

/-- More than a result up to a thousand can be off by. -/
def slack : ℚ := 1 / 8192

def Approximates (x : Float32) (exact : ℚ) : Prop :=
  x.isFinite = true ∧ |singleValue x - exact| ≤ slack

theorem slack_eq : slack = 1 / 8192 := rfl

theorem Approximates.abs_le {x : Float32} {exact : ℚ} (approximates : Approximates x exact)
    (bound : ℚ) (small : |exact| ≤ bound) : |singleValue x| ≤ bound + slack := by
  have difference := abs_sub_abs_le_abs_sub (singleValue x) exact
  linarith [approximates.2]

theorem settled_of_single (x : Float32) (finite : x.isFinite = true) :
    SettledIn .binary32 x.toModel.unpack :=
  settledIn_unpack .binary32 _ finite

theorem approximates_of_pack (x : Float32) (result : UnpackedFloat) (exact : ℚ)
    (packed : x.toModel.unpack =
      UnpackedFloat.unpack .binary32 (UnpackedFloat.pack .binary32 result))
    (near : SettledIn .binary32 result ∧
      |rational result - exact| ≤ roundoffIn .binary32 * |exact| + underflowIn .binary32)
    (room : |exact| ≤ 1000) : Approximates x exact := by
  have roundoff_eq : roundoffIn .binary32 = 1 / 2 ^ 24 := by
    rw [roundoffIn, zpow_neg, one_div]
    rfl
  have underflow_le : underflowIn .binary32 ≤ 1 / 2 ^ 24 := by
    rw [underflowIn, one_div, ← zpow_natCast, ← zpow_neg]
    exact zpow_le_zpow_right₀ (by norm_num) (by decide)
  have close : |rational result - exact| ≤ slack := by
    apply near.2.trans
    rw [roundoff_eq, slack]
    linarith
  have inside : |rational result| < 2 ^ (128 : Int) := by
    have sum := abs_sub_abs_le_abs_sub (rational result) exact
    have most : (1001 : ℚ) ≤ 2 ^ (128 : Int) := by
      exact_mod_cast (by decide : 1001 ≤ 2 ^ 128)
    rw [slack] at close
    linarith
  rw [unpack_settledIn .binary32 result (by decide) near.1 inside] at packed
  refine ⟨?_, ?_⟩
  · change x.toModel.unpack.isFinite = true
    have settled := near.1
    rw [packed]
    cases result with
    | notANumber | infinity => exact settled.elim
    | zero | finite => rfl
  · rw [singleValue, packed]
    exact close

section Arithmetic

variable (x y : Float32) (left : x.isFinite = true) (right : y.isFinite = true)

include left right

theorem single_add (room : |singleValue x + singleValue y| ≤ 1000) :
    Approximates (x + y) (singleValue x + singleValue y) := by
  have near := near_add .binary32 _ _ (settled_of_single x left) (settled_of_single y right)
  exact approximates_of_pack _ _ _ rfl
    ⟨near.1, near.2.trans (le_add_of_nonneg_right (underflowIn_pos _).le)⟩ room

theorem single_sub (room : |singleValue x - singleValue y| ≤ 1000) :
    Approximates (x - y) (singleValue x - singleValue y) := by
  have near := near_sub .binary32 _ _ (settled_of_single x left) (settled_of_single y right)
  exact approximates_of_pack _ _ _ rfl
    ⟨near.1, near.2.trans (le_add_of_nonneg_right (underflowIn_pos _).le)⟩ room

theorem single_mul (room : |singleValue x * singleValue y| ≤ 1000) :
    Approximates (x * y) (singleValue x * singleValue y) :=
  approximates_of_pack _ _ _ rfl
    (near_mul .binary32 _ _ (settled_of_single x left) (settled_of_single y right)) room

theorem single_div (nonzero : singleValue y ≠ 0) (room : |singleValue x / singleValue y| ≤ 1000) :
    Approximates (x / y) (singleValue x / singleValue y) :=
  approximates_of_pack _ _ _ rfl
    (near_div .binary32 _ _ (settled_of_single x left) (settled_of_single y right) nonzero) room

end Arithmetic

theorem singleValue_zero : singleValue 0 = 0 := rfl

theorem singleValue_one : singleValue 1 = 1 := by
  have parts : (1 : Float32).toModel.unpack = .finite .positive (2 ^ 23) (-23) (by decide) := rfl
  rw [singleValue, parts]
  norm_num [rational, Sign.apply]

theorem single_ofNat (whole : Nat) (small : whole ≤ 999) :
    (Float32.ofNat whole).isFinite = true ∧
      |singleValue (Float32.ofNat whole) - whole| ≤ 2 * slack := by
  have count : whole.toUInt64.toNat = whole := UInt64.toNat_ofNat_of_lt' (by
    have : UInt64.size = 2 ^ 64 := rfl
    omega)
  have scaled : Float32.ofNat whole = whole.toUInt64.toFloat32 * 1 := by
    change Float32.ofScientific whole false 0 = _
    rw [Float32.ofScientific, dif_pos ⟨by omega, by decide⟩]
    rfl
  have near := near_normalize .binary32 whole 0 .positive (by decide)
  have exact_eq : ((whole : Int) : ℚ) * 2 ^ (0 : Int) = whole := by simp
  rw [exact_eq] at near
  have bound : (whole : ℚ) ≤ 999 := by exact_mod_cast small
  have nonneg : (0 : ℚ) ≤ whole := Nat.cast_nonneg whole
  obtain ⟨finite, close⟩ : Approximates whole.toUInt64.toFloat32 whole := by
    apply approximates_of_pack _ (UnpackedFloat.normalize .binary32 whole 0 .positive) _ _
      ⟨near.1, near.2.trans (le_add_of_nonneg_right (underflowIn_pos _).le)⟩
    · rw [abs_of_nonneg nonneg]
      linarith
    · nth_rewrite 2 [← count]
      rfl
  have product := single_mul whole.toUInt64.toFloat32 1 finite rfl
  rw [singleValue_one, mul_one, ← scaled] at product
  have slack_eq := slack_eq
  have sum := abs_sub_abs_le_abs_sub (singleValue whole.toUInt64.toFloat32) whole
  rw [abs_of_nonneg nonneg] at sum
  obtain ⟨product_finite, product_close⟩ := product (by linarith)
  exact ⟨product_finite, (abs_sub_le _ _ _).trans (by linarith)⟩

theorem exponent_neg_of_small (x : Float32) (negative : Bool) (mantissa : Nat) (exponent : Int)
    (parts : ofSingle x = .finite negative mantissa exponent)
    (small : (mantissa : ℚ) * 2 ^ exponent < 2 ^ 23) : exponent < 0 := by
  obtain ⟨-, low, full⟩ := fits_of_decode .binary32 x.toBits.toNat negative mantissa exponent parts
  by_contra whole
  have normal : 2 ^ 23 ≤ mantissa := by
    by_contra short
    have lowest : exponent = -149 := full (Nat.lt_of_not_le short)
    omega
  have large : (2 : ℚ) ^ 23 ≤ mantissa * 2 ^ exponent := calc
    (2 : ℚ) ^ 23 ≤ mantissa := by exact_mod_cast normal
    _ ≤ mantissa * 2 ^ exponent :=
      le_mul_of_one_le_right (Nat.cast_nonneg mantissa) (one_le_zpow₀ (by norm_num) (by omega))
  exact absurd small large.not_gt

/-- A number close to a byte is rounded to it, but for the sign of a zero. -/
theorem roundSingle_near (x : Float32) (byte : Nat) (finite : x.isFinite = true)
    (small : byte ≤ 255) (near : |singleValue x - byte| < 1 / 2) :
    roundSingle x = Float32.ofNat byte ∨ byte = 0 ∧ roundSingle x = -Float32.ofNat 0 := by
  have unpacked : x.toModel.unpack = (ofSingle x).unpacked :=
    unpack_eq_decode .binary32 x.toBits.toBitVec
  change x.toModel.unpack.isFinite = true at finite
  rw [singleValue, unpacked] at near
  rw [unpacked] at finite
  unfold roundSingle roundSingleWith
  cases parts : ofSingle x with
  | notANumber | infinite =>
    rw [parts] at finite
    cases finite
  | finite negative mantissa exponent =>
    rw [parts, rational_unpacked] at near
    have byte_nonneg : (0 : ℚ) ≤ byte := Nat.cast_nonneg byte
    have size_nonneg : (0 : ℚ) ≤ mantissa * 2 ^ exponent := by positivity
    have bound : (byte : ℚ) ≤ 255 := by exact_mod_cast small
    have close : |(mantissa : ℚ) * 2 ^ exponent - byte| < 1 / 2 := by
      cases negative with
      | false => simpa [sign, Sign.apply] using near
      | true =>
        simp only [sign, Sign.apply, if_true, Int.cast_neg, Int.cast_one, neg_one_mul] at near
        rw [abs_lt] at near ⊢
        constructor <;> linarith
    obtain ⟨below, above⟩ := abs_lt.mp close
    have fraction : exponent < 0 :=
      exponent_neg_of_small x negative mantissa exponent parts (by linarith)
    have counted : (Direction.nearest.apply mantissa exponent : Int) = byte := by
      rw [apply_nearest, Int.floor_eq_iff]
      push_cast
      constructor <;> linarith
    simp only
    rw [if_neg (by omega), Int.ofNat_inj.mp counted]
    cases negative with
    | false => exact .inl rfl
    | true =>
      have nothing : byte = 0 := by
        have less : (byte : ℚ) < 1 := by
          simp only [sign, Sign.apply, if_true, Int.cast_neg, Int.cast_one, neg_one_mul] at near
          linarith [(abs_lt.mp near).1]
        exact Nat.lt_one_iff.mp (by exact_mod_cast less)
      exact .inr ⟨nothing, by rw [nothing]; rfl⟩

end Cartograph.Number

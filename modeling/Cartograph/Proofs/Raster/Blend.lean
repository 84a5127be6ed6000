import Cartograph.Proofs.Color.Bytes
import Cartograph.Proofs.Number.SingleOrder
import Cartograph.Raster.Pixel

/-! Blending one pixel. A color that covers a pixel fully replaces it, and one that covers it in
part changes nothing where the pixel has this color already: the shares of both are rounded, but by
far too little for another byte. -/

namespace Cartograph

open Number Float.Model

namespace Number

theorem singleToByte_least (byte : Nat) (small : byte ≤ 255) :
    singleToByte (least (Float32.ofNat byte) 255) = byte := by
  have all : ∀ kept : Fin 256, singleToByte (least (Float32.ofNat kept) 255) = kept := by
    decide +kernel
  exact all ⟨byte, by omega⟩

theorem singleValue_255 : singleValue 255 = 255 := by
  have parts : (255 : Float32).toModel.unpack =
      .finite .positive (255 * 2 ^ 16) (-16) (by decide) := rfl
  rw [singleValue, parts]
  norm_num [rational, UnpackedFloat.Sign.apply]

end Number

namespace Pixel

def share (coverage alpha : Nat) : Float32 :=
  Float32.ofNat coverage / 255 * (Float32.ofNat alpha / 255 * 1)

section Share

theorem part_near (byte : Nat) (small : byte ≤ 255) :
    (Float32.ofNat byte / 255).isFinite = true ∧
      |singleValue (Float32.ofNat byte / 255)| ≤ 9 / 8 := by
  obtain ⟨finite, close⟩ := single_ofNat byte (by omega)
  have bound : (byte : ℚ) ≤ 255 := by exact_mod_cast small
  have slack_eq := slack_eq
  have difference := abs_sub_abs_le_abs_sub (singleValue (Float32.ofNat byte)) (byte : ℚ)
  rw [Nat.abs_cast] at difference
  have part : |singleValue (Float32.ofNat byte) / singleValue 255| ≤ 257 / 255 := by
    rw [singleValue_255, abs_div, abs_of_pos (by norm_num : (0 : ℚ) < 255)]
    apply div_le_div_of_nonneg_right _ (by norm_num)
    linarith
  have quotient := single_div (Float32.ofNat byte) 255 finite rfl
    (by rw [singleValue_255]; norm_num) (by linarith)
  exact ⟨quotient.1, (quotient.abs_le _ part).trans (by linarith)⟩

variable (coverage alpha : Nat) (covers : coverage ≤ 255) (visible : alpha ≤ 255)

include covers visible

theorem share_near : (share coverage alpha).isFinite = true ∧
    |singleValue (share coverage alpha)| ≤ 3 / 2 := by
  obtain ⟨first_finite, first_small⟩ := part_near coverage covers
  obtain ⟨second_finite, second_small⟩ := part_near alpha visible
  have slack_eq := slack_eq
  have same : |singleValue (Float32.ofNat alpha / 255) * singleValue 1| ≤ 9 / 8 := by
    rwa [singleValue_one, mul_one]
  have second := single_mul (Float32.ofNat alpha / 255) 1 second_finite rfl (by linarith)
  have both : |singleValue (Float32.ofNat coverage / 255) *
      singleValue (Float32.ofNat alpha / 255 * 1)| ≤ 9 / 8 * (9 / 8 + slack) := by
    rw [abs_mul]
    exact mul_le_mul first_small (second.abs_le _ same) (abs_nonneg _) (by norm_num)
  have product := single_mul _ _ first_finite second.1 (both.trans (by linarith))
  exact ⟨product.1, (product.abs_le _ both).trans (by linarith)⟩

theorem keep_near : Approximates (1 - share coverage alpha)
    (1 - singleValue (share coverage alpha)) ∧ |singleValue (1 - share coverage alpha)| ≤ 3 := by
  obtain ⟨finite, small⟩ := share_near coverage alpha covers visible
  have slack_eq := slack_eq
  have range : |1 - singleValue (share coverage alpha)| ≤ 5 / 2 := by
    have triangle := abs_sub (1 : ℚ) (singleValue (share coverage alpha))
    rw [abs_one] at triangle
    linarith
  have difference := single_sub 1 (share coverage alpha) rfl finite
  rw [singleValue_one] at difference
  have near := difference (range.trans (by norm_num))
  exact ⟨near, (near.abs_le _ range).trans (by linarith)⟩

end Share

section Mix

section Scaled

variable (byte : Nat) (small : byte ≤ 255) (x : Float32) (finite : x.isFinite = true)
  (range : |singleValue x| ≤ 3)

include small finite range

theorem scaled_near : (Float32.ofNat byte * x).isFinite = true ∧
    |singleValue (Float32.ofNat byte * x) - byte * singleValue x| ≤ 7 * slack := by
  obtain ⟨byte_finite, close⟩ := single_ofNat byte (by omega)
  have bound : (byte : ℚ) ≤ 255 := by exact_mod_cast small
  have slack_eq := slack_eq
  have difference := abs_sub_abs_le_abs_sub (singleValue (Float32.ofNat byte)) (byte : ℚ)
  rw [Nat.abs_cast] at difference
  have room : |singleValue (Float32.ofNat byte) * singleValue x| ≤ 1000 := by
    rw [abs_mul]
    calc |singleValue (Float32.ofNat byte)| * |singleValue x| ≤ 256 * 3 :=
          mul_le_mul (by linarith) range (abs_nonneg _) (by norm_num)
      _ ≤ 1000 := by norm_num
  obtain ⟨product_finite, product_close⟩ := single_mul _ _ byte_finite finite room
  have moved : |singleValue (Float32.ofNat byte) * singleValue x - byte * singleValue x| ≤
      2 * slack * 3 := by
    rw [← sub_mul, abs_mul]
    exact mul_le_mul close range (abs_nonneg _) (by norm_num [slack_eq])
  exact ⟨product_finite, (abs_sub_le _ _ _).trans (by linarith)⟩

omit small in
theorem scaled_full_near : (x * 255).isFinite = true ∧
    |singleValue (x * 255) - 255 * singleValue x| ≤ 7 * slack := by
  have slack_eq := slack_eq
  have room : |singleValue x * singleValue 255| ≤ 1000 := by
    rw [singleValue_255, abs_mul, abs_of_pos (by norm_num : (0 : ℚ) < 255)]
    linarith
  obtain ⟨product_finite, product_close⟩ := single_mul x 255 finite rfl room
  rw [singleValue_255, mul_comm (singleValue x)] at product_close
  exact ⟨product_finite, by linarith⟩

end Scaled

theorem roundSingle_mix (first second : Float32) (top bottom : ℚ) (byte : Nat)
    (first_near : first.isFinite = true ∧ |singleValue first - top| ≤ 7 * slack)
    (second_near : second.isFinite = true ∧ |singleValue second - bottom| ≤ 7 * slack)
    (small : byte ≤ 255) (mixed : |top + bottom - byte| ≤ 1 / 4) :
    roundSingle (first + second) = Float32.ofNat byte ∨
      byte = 0 ∧ roundSingle (first + second) = -Float32.ofNat 0 := by
  have bound : (byte : ℚ) ≤ 255 := by exact_mod_cast small
  have nonneg : (0 : ℚ) ≤ byte := Nat.cast_nonneg byte
  have slack_eq := slack_eq
  obtain ⟨first_low, first_high⟩ := abs_le.mp first_near.2
  obtain ⟨second_low, second_high⟩ := abs_le.mp second_near.2
  obtain ⟨low, high⟩ := abs_le.mp mixed
  have room : |singleValue first + singleValue second| ≤ 1000 :=
    abs_le.mpr ⟨by linarith, by linarith⟩
  obtain ⟨finite, close⟩ := single_add first second first_near.1 second_near.1 room
  obtain ⟨sum_low, sum_high⟩ := abs_le.mp close
  apply roundSingle_near _ byte finite small
  exact abs_lt.mpr ⟨by linarith, by linarith⟩

theorem byte_of_mix (mixed : Float32) (byte : Nat) (small : byte ≤ 255)
    (rounded : roundSingle mixed = Float32.ofNat byte ∨
      byte = 0 ∧ roundSingle mixed = -Float32.ofNat 0) :
    singleToByte (least (roundSingle mixed) 255) = byte := by
  rcases rounded with same | ⟨rfl, zero⟩
  · rw [same]
    exact singleToByte_least byte small
  · rw [zero]
    decide

end Mix

/-- A channel that two channels mix to, but for the rounding. -/
def MixesTo (part : Float32) (top bottom byte : Nat) : Prop :=
  |(top : ℚ) * singleValue part + bottom * singleValue (1 - part) - byte| ≤ 1 / 4

section Blend

variable (color below kept : Rgba Nat) (coverage : Nat) (color_bytes : color.IsBytes)
  (below_bytes : below.IsBytes) (covers : coverage ≤ 255)

include color_bytes below_bytes covers

omit below_bytes in
theorem byte_of_mixesTo (top bottom byte : Nat) (top_small : top ≤ 255)
    (bottom_small : bottom ≤ 255) (small : byte ≤ 255)
    (mixes : MixesTo (share coverage color.alpha) top bottom byte) :
    singleToByte (least (roundSingle (Float32.ofNat top * share coverage color.alpha +
      Float32.ofNat bottom * (1 - share coverage color.alpha))) 255) = byte := by
  obtain ⟨finite, range⟩ := share_near coverage color.alpha covers color_bytes.alpha
  obtain ⟨keep, keep_range⟩ := keep_near coverage color.alpha covers color_bytes.alpha
  apply byte_of_mix _ byte small
  exact roundSingle_mix _ _ _ _ byte
    (scaled_near top top_small _ finite (range.trans (by norm_num)))
    (scaled_near bottom bottom_small _ keep.1 keep_range) small mixes

theorem blend_of_mixed (solid : kept.alpha = 255) (kept_bytes : kept.IsBytes)
    (seen : ¬ share coverage color.alpha ≤ 0)
    (red : MixesTo (share coverage color.alpha) color.red below.red kept.red)
    (green : MixesTo (share coverage color.alpha) color.green below.green kept.green)
    (blue : MixesTo (share coverage color.alpha) color.blue below.blue kept.blue)
    (alpha : MixesTo (share coverage color.alpha) 255 below.alpha 255) :
    blend color 1 coverage below = kept := by
  obtain ⟨finite, range⟩ := share_near coverage color.alpha covers color_bytes.alpha
  obtain ⟨keep, keep_range⟩ := keep_near coverage color.alpha covers color_bytes.alpha
  have total : least (roundSingle (share coverage color.alpha * 255 +
      Float32.ofNat below.alpha * (1 - share coverage color.alpha))) 255 = 255 := by
    have rounded := roundSingle_mix _ _ _ _ 255
      (scaled_full_near _ finite (range.trans (by norm_num)))
      (scaled_near below.alpha below_bytes.alpha _ keep.1 keep_range) le_rfl alpha
    rcases rounded with same | ⟨none, -⟩
    · rw [same]
      rfl
    · cases none
  have channel := byte_of_mixesTo color coverage color_bytes covers
  have red_eq := channel _ _ _ color_bytes.red below_bytes.red kept_bytes.red red
  have green_eq := channel _ _ _ color_bytes.green below_bytes.green kept_bytes.green green
  have blue_eq := channel _ _ _ color_bytes.blue below_bytes.blue kept_bytes.blue blue
  have most : singleToByte 255 = 255 := singleToByte_least 255 le_rfl
  unfold blend blend? Pixel.seen
  rw [← share]
  simp only
  rw [if_neg seen, total, red_eq, green_eq, blue_eq, most, ofChannels?,
    if_pos ⟨kept_bytes.red, kept_bytes.green, kept_bytes.blue⟩]
  obtain ⟨r, g, b, a⟩ := kept
  obtain rfl : a = 255 := solid
  rfl

end Blend

theorem blend_unseen (color : Rgba Nat) (below : Pixel) (opacity : Float32) (coverage : Nat)
    (unseen : seen color opacity coverage ≤ 0) : blend color opacity coverage below = below :=
  congrArg (Option.getD · below) (if_pos unseen)

theorem uncovered_le (rest : Float32) (finite : rest.isFinite = true) :
    Float32.ofNat 0 / 255 * rest ≤ 0 := by
  change rest.toModel.unpack.isFinite = true at finite
  have product : (Float32.ofNat 0 / 255 * rest).toModel.unpack = UnpackedFloat.unpack .binary32
      (UnpackedFloat.pack .binary32 (UnpackedFloat.mul .binary32 (.zero .positive)
        rest.toModel.unpack)) := rfl
  change decide ((Float32.ofNat 0 / 255 * rest).toModel.unpack.le (0 : Float32).toModel.unpack =
    true) = true
  rw [product]
  cases parts : rest.toModel.unpack with
  | notANumber | infinity =>
    rw [parts] at finite
    cases finite
  | zero side | finite side =>
    rw [UnpackedFloat.mul]
    cases side <;> rfl

section Laws

variable (color below : Rgba Nat) (color_bytes : color.IsBytes) (coverage : Nat)

include color_bytes

theorem blend_full (solid : color.alpha = 255) (below_bytes : below.IsBytes) :
    blend color 1 255 below = color := by
  have whole : share 255 255 = 1 := by decide
  have nothing : (1 : Float32) - 1 = 0 := by decide
  have mixes (top bottom : Nat) : MixesTo (share 255 color.alpha) top bottom top := by
    rw [MixesTo, solid, whole, nothing, singleValue_one, singleValue_zero]
    norm_num
  apply blend_of_mixed color below color 255 color_bytes below_bytes le_rfl solid color_bytes
  · rw [solid, whole]
    decide
  · exact mixes _ _
  · exact mixes _ _
  · exact mixes _ _
  · exact mixes _ _

theorem blend_self (solid : color.alpha = 255) (covers : coverage ≤ 255) :
    blend color 1 coverage color = color := by
  by_cases seen : share coverage color.alpha ≤ 0
  · exact congrArg (Option.getD · color) (if_pos seen)
  · obtain ⟨keep, -⟩ := keep_near coverage color.alpha covers color_bytes.alpha
    have mixes (byte : Nat) (small : byte ≤ 255) :
        MixesTo (share coverage color.alpha) byte byte byte := by
      have bound : (byte : ℚ) ≤ 255 := by exact_mod_cast small
      have slack_eq := slack_eq
      have sum : (byte : ℚ) * singleValue (share coverage color.alpha) +
          byte * singleValue (1 - share coverage color.alpha) - byte =
            byte * (singleValue (1 - share coverage color.alpha) -
              (1 - singleValue (share coverage color.alpha))) := by ring
      rw [MixesTo, sum, abs_mul, Nat.abs_cast]
      calc (byte : ℚ) * |singleValue (1 - share coverage color.alpha) -
            (1 - singleValue (share coverage color.alpha))| ≤ 255 * slack :=
            mul_le_mul bound keep.2 (abs_nonneg _) (by norm_num)
        _ ≤ 1 / 4 := by norm_num [slack_eq]
    apply blend_of_mixed color color color coverage color_bytes color_bytes covers solid color_bytes
      seen (mixes _ color_bytes.red) (mixes _ color_bytes.green) (mixes _ color_bytes.blue)
    rw [solid]
    have := mixes 255 le_rfl
    rwa [solid] at this

section Uncovered

variable (opacity : Float32) (unit : 0 ≤ opacity ∧ opacity ≤ 1)

include unit

theorem blend?_uncovered : blend? color opacity 0 below = some below := by
  have slack_eq := slack_eq
  obtain ⟨alpha_finite, alpha_small⟩ := part_near color.alpha color_bytes.alpha
  obtain ⟨opacity_finite, above, under⟩ := finite_of_unit opacity unit.1 unit.2
  have small : |singleValue (Float32.ofNat color.alpha / 255) * singleValue opacity| ≤ 1000 := by
    rw [abs_mul, abs_of_nonneg above]
    calc |singleValue (Float32.ofNat color.alpha / 255)| * singleValue opacity ≤ 9 / 8 * 1 :=
          mul_le_mul alpha_small under above (by norm_num)
      _ ≤ 1000 := by norm_num
  exact if_pos (uncovered_le _ (single_mul _ opacity alpha_finite opacity_finite small).1)

theorem blend_uncovered : blend color opacity 0 below = below := by
  rw [blend, blend?_uncovered color below color_bytes opacity unit, Option.getD_some]

end Uncovered

omit color_bytes in
theorem blend_isBytes (opacity : Float32) (below_bytes : below.IsBytes) :
    (blend color opacity coverage below).IsBytes := by
  unfold blend blend?
  simp only
  split
  · exact below_bytes
  · unfold ofChannels?
    split
    · exact ⟨Color.singleToByte_le _, Color.singleToByte_le _, Color.singleToByte_le _,
        Color.singleToByte_le _⟩
    · exact below_bytes

end Laws

end Pixel

end Cartograph

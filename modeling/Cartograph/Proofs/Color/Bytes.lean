import Cartograph.Color.Reader
import Cartograph.Proofs.Number.Special
import Cartograph.Proofs.Number.Whole

/-! Channels as bytes. A channel that is a byte divided by 255 is turned into that byte again,
though the quotient and its multiple are both rounded; and whatever notation a color is read from,
its channels are bytes. -/

namespace Cartograph

structure Rgba.IsBytes (bytes : Rgba Nat) : Prop where
  red : bytes.red ≤ 255
  green : bytes.green ≤ 255
  blue : bytes.blue ≤ 255
  alpha : bytes.alpha ≤ 255

namespace Color

open Number

theorem wholePart_le (low high : Int) (parts : Binary) (zero : low ≤ 0 ∧ 0 ≤ high) :
    wholePart low high parts ≤ high := by
  cases parts with
  | notANumber => exact zero.2
  | infinite negative => cases negative with
    | false => exact le_rfl
    | true => exact zero.1.trans zero.2
  | finite negative mantissa exponent =>
    exact max_le (zero.1.trans zero.2) (min_le_left _ _)

theorem toByte_le (x : Float) : toByte x ≤ 255 := by
  have := wholePart_le 0 255 (ofDouble x) (by decide)
  unfold toByte
  omega

theorem singleToByte_le (x : Float32) : singleToByte x ≤ 255 := by
  have := wholePart_le 0 255 (ofSingle x) (by decide)
  unfold singleToByte
  omega

theorem channelByte_le (x : Float) : channelByte x ≤ 255 := toByte_le (round x)

theorem isBytes_bytes (color : Color) : color.bytes.IsBytes :=
  ⟨toByte_le _, toByte_le _, toByte_le _, toByte_le _⟩

section Share

variable (byte : Nat) (small : byte ≤ 255)

theorem value_255 : value 255 = 255 := by
  rw [value_of_unpack 255 .positive (255 * 2 ^ 45) (-45) (by decide) rfl]
  norm_num [Float.Model.UnpackedFloat.Sign.apply]

include small

theorem value_share : (Float.ofNat byte / 255).isFinite = true ∧
    0 ≤ value (Float.ofNat byte / 255) ∧ value (Float.ofNat byte / 255) ≤ 1 ∧
      |value (Float.ofNat byte / 255) - byte / 255| ≤ 2 ^ (-52 : Int) := by
  obtain ⟨byte_finite, counted⟩ := value_ofNat byte (by omega)
  have quotient := div_computes (Float.ofNat byte) 255 byte_finite rfl (by rw [value_255]; norm_num)
  rw [counted, value_255] at quotient
  have nonneg : (0 : ℚ) ≤ byte / 255 := by positivity
  have most : (byte : ℚ) / 255 ≤ 1 := by
    rw [div_le_one (by norm_num)]
    exact_mod_cast small
  obtain ⟨finite, above, below⟩ := quotient.between isDouble_zero isDouble_one nonneg most
  refine ⟨finite, above, below, (quotient.near (-52) (by decide) (by decide) nonneg ?_).2⟩
  apply most.trans_lt
  norm_num

/-- The two roundings together stay far below half a byte. -/
theorem channelByte_share : channelByte (Float.ofNat byte / 255 * 255) = byte := by
  obtain ⟨finite, above, below, near⟩ := value_share byte small
  have product := mul_computes (Float.ofNat byte / 255) 255 finite rfl
  rw [value_255] at product
  obtain ⟨product_finite, error⟩ := product.near (-44) (by decide) (by decide) (by linarith) <| by
    calc value (Float.ofNat byte / 255) * 255 ≤ 1 * 255 := by gcongr
      _ < (2 ^ 53 - 1) * 2 ^ (-44 : Int) := by norm_num
  have shared : |value (Float.ofNat byte / 255) * 255 - byte| ≤ 255 * 2 ^ (-52 : Int) := by
    have scaled : value (Float.ofNat byte / 255) * 255 - byte =
        255 * (value (Float.ofNat byte / 255) - byte / 255) := by ring
    rw [scaled, abs_mul, abs_of_pos (by norm_num : (0 : ℚ) < 255)]
    exact mul_le_mul_of_nonneg_left near (by norm_num)
  apply toByte_round _ product_finite byte small
  calc |value (Float.ofNat byte / 255 * 255) - byte|
      ≤ |value (Float.ofNat byte / 255 * 255) - value (Float.ofNat byte / 255) * 255| +
          |value (Float.ofNat byte / 255) * 255 - byte| := abs_sub_le _ _ _
    _ ≤ 2 ^ (-44 : Int) + 255 * 2 ^ (-52 : Int) := add_le_add error shared
    _ < 1 / 2 := by norm_num

theorem channelByte_ofNat : channelByte (Float.ofNat byte) = byte := by
  obtain ⟨finite, counted⟩ := value_ofNat byte (by omega)
  apply toByte_round _ finite byte small
  rw [counted, sub_self, abs_zero]
  norm_num

theorem byte_share : Color.byte (Float.ofNat byte / 255) = byte := by
  obtain ⟨finite, above, below, -⟩ := value_share byte small
  have inside : clampUnit (Float.ofNat byte / 255) = Float.ofNat byte / 255 := by
    unfold clampUnit Number.clamp
    rw [if_neg, if_neg]
    · rw [lt_iff_value 1 _ rfl finite, value_one]
      exact not_lt.mpr below
    · rw [lt_iff_value _ 0 finite rfl, value_zero]
      exact not_lt.mpr above
  rw [Color.byte, inside]
  exact channelByte_share byte small

end Share

theorem bytes_ofBytes (bytes : Rgba Nat) (small : bytes.IsBytes) :
    (ofBytes bytes).bytes = bytes := by
  rw [Color.bytes, ofBytes, byte_share _ small.red, byte_share _ small.green,
    byte_share _ small.blue, byte_share _ small.alpha]

section Readers

theorem hexValue_le (c : Char) (hex : isHex c = true) : hexValue c ≤ 15 := by
  simp only [isHex, Bool.or_eq_true, Bool.and_eq_true, decide_eq_true_eq, Char.le_def,
    UInt32.le_iff_toNat_le] at hex
  unfold hexValue
  split
  · next digit =>
    have code : 48 ≤ c.toNat ∧ c.toNat ≤ 57 := by
      simpa [Char.isDigit, UInt32.le_iff_toNat_le] using digit
    change c.toNat - 48 ≤ 15
    omega
  · next other =>
    have letter : c.toLower.toNat ≤ 102 := (hex.resolve_left other).2
    change c.toLower.toNat - 97 + 10 ≤ 15
    omega

theorem isBytes_hexBytes (digits : List Nat) (small : ∀ digit ∈ digits, digit ≤ 15)
    (bytes : Rgba Nat) (read : hexBytes? digits = some bytes) : bytes.IsBytes := by
  unfold hexBytes? at read
  split at read
  all_goals first
    | cases read
      simp only [List.forall_mem_cons] at small
      constructor <;> simp only <;> omega
    | cases read

theorem isBytes_hash (text rest : List Char) (bytes : Rgba Nat)
    (read : hash? text = some (bytes, rest)) : bytes.IsBytes := by
  obtain ⟨found, digits, same⟩ := Option.map_eq_some_iff.mp read
  cases same
  apply isBytes_hexBytes _ _ _ digits
  intro digit member
  obtain ⟨c, taken, rfl⟩ := List.mem_map.mp member
  exact hexValue_le c (List.mem_takeWhile_imp taken)

theorem alphaByte_le (text rest : List Char) (alpha : Nat)
    (read : alphaByte? text = some (alpha, rest)) : alpha ≤ 255 := by
  unfold alphaByte? at read
  split at read
  · cases read
    exact le_rfl
  · obtain ⟨found, -, same⟩ := Option.map_eq_some_iff.mp read
    cases same
    exact channelByte_le _

theorem alpha_le (text rest : List Char) (alpha : Nat) (read : alpha? text = some (alpha, rest)) :
    alpha ≤ 255 := by
  unfold alpha? at read
  obtain ⟨⟨found, behind⟩, first, second⟩ := Option.bind_eq_some_iff.mp read
  simp only at second
  split at second
  · cases second
    exact alphaByte_le _ _ _ first
  · cases second

theorem isBytes_rgb (text rest : List Char) (bytes : Rgba Nat)
    (read : rgb? text = some (bytes, rest)) : bytes.IsBytes := by
  unfold rgb? at read
  obtain ⟨⟨first, behind⟩, -, percent⟩ := Option.bind_eq_some_iff.mp read
  simp only at percent
  split at percent
  all_goals
    obtain ⟨⟨green, more⟩, -, others⟩ := Option.bind_eq_some_iff.mp percent
    obtain ⟨⟨blue, end_part⟩, -, last⟩ := Option.bind_eq_some_iff.mp others
    obtain ⟨⟨alpha, after⟩, closed, result⟩ := Option.bind_eq_some_iff.mp last
    cases result
    exact ⟨channelByte_le _, channelByte_le _, channelByte_le _, alpha_le _ _ _ closed⟩

theorem isBytes_hsl (text rest : List Char) (bytes : Rgba Nat)
    (read : hsl? text = some (bytes, rest)) : bytes.IsBytes := by
  unfold hsl? at read
  obtain ⟨⟨hue, behind⟩, -, others⟩ := Option.bind_eq_some_iff.mp read
  obtain ⟨⟨saturation, more⟩, -, others⟩ := Option.bind_eq_some_iff.mp others
  obtain ⟨⟨lightness, end_part⟩, -, last⟩ := Option.bind_eq_some_iff.mp others
  obtain ⟨⟨alpha, after⟩, closed, result⟩ := Option.bind_eq_some_iff.mp last
  cases result
  exact ⟨singleToByte_le _, singleToByte_le _, singleToByte_le _, alpha_le _ _ _ closed⟩

theorem keywords_small : ∀ entry ∈ keywords, entry.2 < 0x1000000 := by
  decide +kernel

theorem isBytes_keyword (name : String) (bytes : Rgba Nat) (read : keyword? name = some bytes) :
    bytes.IsBytes := by
  unfold keyword? at read
  split at read
  · cases read
    constructor <;> decide
  · obtain ⟨value, found, same⟩ := Option.map_eq_some_iff.mp read
    obtain ⟨before, after, listed, -⟩ := List.lookup_eq_some_iff.mp found
    have small : value < 0x1000000 := by
      apply keywords_small (name, value)
      rw [listed]
      exact List.mem_append_right _ List.mem_cons_self
    cases same
    constructor <;> simp only <;> omega

theorem isBytes_named (text rest : List Char) (bytes : Rgba Nat)
    (read : named? text = some (bytes, rest)) : bytes.IsBytes := by
  unfold named? at read
  simp only at read
  split at read
  · obtain ⟨opened, -, found⟩ := Option.bind_eq_some_iff.mp read
    exact isBytes_rgb _ _ _ found
  · split at read
    · obtain ⟨opened, -, found⟩ := Option.bind_eq_some_iff.mp read
      exact isBytes_hsl _ _ _ found
    · obtain ⟨found, listed, same⟩ := Option.map_eq_some_iff.mp read
      cases same
      exact isBytes_keyword _ _ listed

theorem isBytes_of_read (text : List Char) (bytes : Rgba Nat) (read : bytes? text = some bytes) :
    bytes.IsBytes := by
  have whole (found : Option (Rgba Nat × List Char))
      (complete : (found.bind fun entry =>
        if skipSpaces entry.2 = [] then some entry.1 else none) = some bytes) :
      ∃ rest, found = some (bytes, rest) := by
    obtain ⟨⟨other, rest⟩, form, blank⟩ := Option.bind_eq_some_iff.mp complete
    simp only [Option.ite_none_right_eq_some, Option.some.injEq] at blank
    obtain ⟨-, rfl⟩ := blank
    exact ⟨rest, form⟩
  unfold bytes? at read
  simp only at read
  split at read
  · obtain ⟨rest, form⟩ := whole _ read
    exact isBytes_hash _ _ _ form
  · obtain ⟨rest, form⟩ := whole _ read
    exact isBytes_named _ _ _ form

end Readers

end Color

end Cartograph

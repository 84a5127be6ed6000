import Mathlib
import Cartograph.Number.Binary

/-! Floating-point patterns and the values that the arithmetic of the language takes them for.
A pattern is determined by its parts, and every pair of parts in range belongs to a pattern. -/

namespace Cartograph.Number

open Float.Model Float.Model.UnpackedFloat

def sign (negative : Bool) : Sign := if negative then .negative else .positive

namespace Binary

def unpacked : Binary → UnpackedFloat
  | notANumber => .notANumber
  | infinite negative => .infinity (sign negative)
  | finite negative mantissa exponent =>
    if positive : 0 < mantissa then .finite (sign negative) mantissa exponent positive
    else .zero (sign negative)

end Binary

theorem unpacked_finite (negative : Bool) (mantissa : Nat) (exponent : Int)
    (positive : 0 < mantissa) :
    (Binary.finite negative mantissa exponent).unpacked =
      .finite (sign negative) mantissa exponent positive := by
  rw [Binary.unpacked, dif_pos positive]

theorem unpacked_zero (negative : Bool) (exponent : Int) :
    (Binary.finite negative 0 exponent).unpacked = .zero (sign negative) := rfl

abbrev layoutOf (spec : Format) : Layout :=
  ⟨spec.mantissaBitsWithoutImplicit, spec.exponentBits⟩

theorem Layout.decode_eq (layout : Layout) (bits : Nat) :
    layout.decode bits =
      if bits / 2 ^ layout.fractionBits % 2 ^ layout.exponentBits =
          2 ^ layout.exponentBits - 1 then
        if bits % 2 ^ layout.fractionBits = 0 then
          .infinite (bits / 2 ^ (layout.fractionBits + layout.exponentBits) % 2 == 1)
        else .notANumber
      else if bits / 2 ^ layout.fractionBits % 2 ^ layout.exponentBits = 0 then
        .finite (bits / 2 ^ (layout.fractionBits + layout.exponentBits) % 2 == 1)
          (bits % 2 ^ layout.fractionBits) layout.smallestExponent
      else
        .finite (bits / 2 ^ (layout.fractionBits + layout.exponentBits) % 2 == 1)
          (2 ^ layout.fractionBits + bits % 2 ^ layout.fractionBits)
          (layout.smallestExponent +
            ((bits / 2 ^ layout.fractionBits % 2 ^ layout.exponentBits : Nat) - 1)) := rfl

section Fields

variable (spec : Format) (bits : BitVec spec.numBits)

theorem toNat_unpackMantissa :
    (unpackMantissa bits).toNat = bits.toNat % 2 ^ spec.mantissaBitsWithoutImplicit := by
  rw [unpackMantissa_def, BitVec.extractLsb'_toNat, Nat.shiftRight_zero]

theorem toNat_unpackExponent :
    (unpackExponent bits).toNat =
      bits.toNat / 2 ^ spec.mantissaBitsWithoutImplicit % 2 ^ spec.exponentBits := by
  rw [unpackExponent_def, BitVec.extractLsb'_toNat, Nat.shiftRight_eq_div_pow]

theorem ofBitVec_unpackSign :
    Sign.ofBitVec (unpackSign bits) = sign (bits.toNat /
      2 ^ (spec.mantissaBitsWithoutImplicit + spec.exponentBits) % 2 == 1) := by
  have value : (unpackSign bits).toNat = bits.toNat /
      2 ^ (spec.mantissaBitsWithoutImplicit + spec.exponentBits) % 2 := by
    rw [unpackSign_def, BitVec.extractLsb'_toNat, Nat.shiftRight_eq_div_pow, pow_one]
  have zero : unpackSign bits = 0#1 ↔ (unpackSign bits).toNat = 0 := by
    rw [← BitVec.toNat_inj]
    rfl
  rw [Sign.ofBitVec, sign]
  by_cases set : (unpackSign bits).toNat = 0
  · rw [if_pos (zero.mpr set), ← value, set]
    rfl
  · have one : (unpackSign bits).toNat = 1 := by
      have := (unpackSign bits).isLt
      omega
    rw [if_neg (fun found => set (zero.mp found)), ← value, one]
    rfl

theorem unpack_eq_decode :
    UnpackedFloat.unpack spec bits = ((layoutOf spec).decode bits.toNat).unpacked := by
  have mantissa := toNat_unpackMantissa spec bits
  have exponent := toNat_unpackExponent spec bits
  have sign_eq := ofBitVec_unpackSign spec bits
  have pos := Nat.two_pow_pos spec.exponentBits
  have top : unpackExponent bits = -1#_ ↔
      bits.toNat / 2 ^ spec.mantissaBitsWithoutImplicit % 2 ^ spec.exponentBits =
        2 ^ spec.exponentBits - 1 := by
    rw [← exponent, ← BitVec.toNat_inj, BitVec.neg_one_eq_allOnes, BitVec.toNat_allOnes]
  have bottom : unpackExponent bits = 0#_ ↔
      bits.toNat / 2 ^ spec.mantissaBitsWithoutImplicit % 2 ^ spec.exponentBits = 0 := by
    rw [← exponent, ← BitVec.toNat_inj, BitVec.toNat_zero]
  have whole : unpackMantissa bits = 0#_ ↔
      bits.toNat % 2 ^ spec.mantissaBitsWithoutImplicit = 0 := by
    rw [← mantissa, ← BitVec.toNat_inj, BitVec.toNat_zero]
  have bias : ((spec.exponentBias : Nat) : Int) = 2 ^ (spec.exponentBits - 1) - 1 := by
    rw [Format.exponentBias, Nat.cast_sub Nat.one_le_two_pow]
    norm_num
  have low : (layoutOf spec).smallestExponent =
      2 - 2 ^ (spec.exponentBits - 1) - spec.mantissaBitsWithoutImplicit := by
    simp [Layout.smallestExponent]
  have implicit : (1#1 ++ unpackMantissa bits).toNat =
      2 ^ spec.mantissaBitsWithoutImplicit + (unpackMantissa bits).toNat := by
    rw [BitVec.toNat_append, ← Nat.shiftLeft_add_eq_or_of_lt (unpackMantissa bits).isLt]
    simp [Nat.shiftLeft_eq]
  simp only [UnpackedFloat.unpack, top, bottom, whole, sign_eq]
  rw [Layout.decode_eq]
  by_cases special : bits.toNat / 2 ^ spec.mantissaBitsWithoutImplicit % 2 ^ spec.exponentBits =
      2 ^ spec.exponentBits - 1
  · rw [if_pos special, if_pos special]
    split <;> rfl
  · rw [if_neg special, if_neg special]
    by_cases tiny : bits.toNat / 2 ^ spec.mantissaBitsWithoutImplicit %
        2 ^ spec.exponentBits = 0
    · rw [if_pos tiny, if_pos tiny]
      by_cases zero : bits.toNat % 2 ^ spec.mantissaBitsWithoutImplicit = 0
      · rw [dif_pos zero, Binary.unpacked, dif_neg (Nat.not_lt.mpr zero.le)]
      · rw [dif_neg zero, Binary.unpacked, dif_pos (Nat.pos_of_ne_zero zero)]
        simp only [mantissa, exponent, tiny, UnpackedFloat.finite.injEq, true_and]
        rw [bias, low]
        push_cast
        ring
    · rw [if_neg tiny, if_neg tiny, Binary.unpacked, dif_pos (by positivity)]
      simp only [implicit, mantissa, exponent, UnpackedFloat.finite.injEq, true_and]
      rw [bias, low]
      push_cast
      ring

end Fields

theorem unpack_eq_ofDouble (x : Float) : x.toModel.unpack = (ofDouble x).unpacked :=
  unpack_eq_decode Format.binary64 x.toBits.toBitVec

/-- Mantissa and exponent of a finite double. Below 53 bits the exponent is the smallest. -/
structure Storable (mantissa : Nat) (exponent : Int) : Prop where
  small : mantissa < 2 ^ 53
  low : -1074 ≤ exponent
  high : exponent ≤ 971
  full : mantissa < 2 ^ 52 → exponent = -1074

theorem decode_double (bits : Nat) :
    Layout.double.decode bits =
      if bits / 4503599627370496 % 2048 = 2047 then
        if bits % 4503599627370496 = 0 then .infinite (bits / 9223372036854775808 % 2 == 1)
        else .notANumber
      else if bits / 4503599627370496 % 2048 = 0 then
        .finite (bits / 9223372036854775808 % 2 == 1) (bits % 4503599627370496) (-1074)
      else
        .finite (bits / 9223372036854775808 % 2 == 1)
          (4503599627370496 + bits % 4503599627370496)
          (-1074 + ((bits / 4503599627370496 % 2048 : Nat) - 1)) := rfl

theorem storable_of_finite (x : Float) (negative : Bool) (mantissa : Nat) (exponent : Int)
    (parts : ofDouble x = .finite negative mantissa exponent) : Storable mantissa exponent := by
  rw [ofDouble, decode_double] at parts
  split at parts
  · split at parts <;> cases parts
  · split at parts
    · obtain ⟨-, rfl, rfl⟩ := Binary.finite.inj parts
      constructor <;> omega
    · obtain ⟨-, rfl, rfl⟩ := Binary.finite.inj parts
      constructor <;> omega

theorem Storable.log2_eq {mantissa : Nat} {exponent : Int} (storable : Storable mantissa exponent)
    (normal : 2 ^ 52 ≤ mantissa) : mantissa.log2 = 52 := by
  have small := storable.small
  rw [Nat.log2_eq_iff (by omega)]
  omega

theorem unpack_packComponents (spec : Format) (side : Sign) (exponent : BitVec spec.exponentBits)
    (mantissa : BitVec spec.mantissaBitsWithoutImplicit) :
    UnpackedFloat.unpack spec (packComponents spec side exponent mantissa) =
      if exponent = -1#_ then
        if mantissa = 0#_ then .infinity side else .notANumber
      else if exponent = 0#_ then
        if whole : mantissa = 0#_ then .zero side
        else .finite side mantissa.toNat
          (exponent.toNat - (spec.exponentBias + spec.mantissaBitsWithoutImplicit) + 1)
          (by simpa [BitVec.toNat_pos, BitVec.pos_iff_ne_zero])
      else .finite side (1#1 ++ mantissa).toNat
        (exponent.toNat - (spec.exponentBias + spec.mantissaBitsWithoutImplicit)) (by simp) := by
  simp [UnpackedFloat.unpack]

section Formats

variable (format : Format)

theorem two_pow_mantissaBits :
    2 ^ format.mantissaBits = 2 * 2 ^ format.mantissaBitsWithoutImplicit := by
  rw [Format.mantissaBits, Nat.pow_add, Nat.pow_one]

theorem exponentBias_cast :
    (format.exponentBias : Int) = 2 ^ (format.exponentBits - 1) - 1 := by
  rw [Format.exponentBias, Nat.cast_sub Nat.one_le_two_pow]
  norm_num

theorem minExponent_eq :
    format.minExponent = 1 - format.exponentBias - format.mantissaBitsWithoutImplicit := by
  rw [Format.minExponent, Format.mantissaBits, exponentBias_cast]
  push_cast
  ring

theorem fits_of_decode (bits : Nat) (negative : Bool) (mantissa : Nat) (exponent : Int)
    (parts : (layoutOf format).decode bits = .finite negative mantissa exponent) :
    mantissa < 2 ^ format.mantissaBits ∧ format.minExponent ≤ exponent ∧
      (mantissa < 2 ^ format.mantissaBitsWithoutImplicit → exponent = format.minExponent) := by
  have twice := two_pow_mantissaBits format
  have fraction := Nat.mod_lt bits (Nat.two_pow_pos format.mantissaBitsWithoutImplicit)
  have smallest : (layoutOf format).smallestExponent = format.minExponent := by
    rw [Format.minExponent, Format.mantissaBits]
    simp [Layout.smallestExponent]
    omega
  have bits_eq : (layoutOf format).fractionBits = format.mantissaBitsWithoutImplicit := rfl
  rw [Layout.decode_eq, smallest, bits_eq] at parts
  split at parts
  · split at parts <;> cases parts
  · split at parts
    · obtain ⟨-, rfl, rfl⟩ := Binary.finite.inj parts
      exact ⟨by omega, le_rfl, fun _ => rfl⟩
    · next normal =>
      obtain ⟨-, rfl, rfl⟩ := Binary.finite.inj parts
      refine ⟨by omega, by omega, fun short => by omega⟩

theorem ne_top {bits : Nat} (exponent : BitVec bits) (below : exponent.toNat + 1 < 2 ^ bits) :
    exponent ≠ -1#_ := by
  rw [Ne, ← BitVec.toNat_inj, BitVec.neg_one_eq_allOnes, BitVec.toNat_allOnes]
  omega

theorem unpack_stored (side : Sign) (mantissa : Nat) (exponent : Int) (positive : 0 < mantissa)
    (small : mantissa < 2 ^ format.mantissaBits) (low : format.minExponent ≤ exponent)
    (high : exponent + format.exponentBias + format.mantissaBitsWithoutImplicit + 1 <
      2 ^ format.exponentBits)
    (full : mantissa < 2 ^ format.mantissaBitsWithoutImplicit → exponent = format.minExponent) :
    UnpackedFloat.unpack format
        (UnpackedFloat.pack format (.finite side mantissa exponent positive)) =
      .finite side mantissa exponent positive := by
  have least := minExponent_eq format
  have twice := two_pow_mantissaBits format
  obtain ⟨biased, biased_eq⟩ : ∃ biased : Nat,
      (biased : Int) = exponent + format.exponentBias + format.mantissaBitsWithoutImplicit :=
    ⟨(exponent + format.exponentBias + format.mantissaBitsWithoutImplicit).toNat, by omega⟩
  have range : 1 ≤ biased ∧ biased + 1 < 2 ^ format.exponentBits := by
    have room : ((biased + 1 : Nat) : Int) < ((2 ^ format.exponentBits : Nat) : Int) := by
      push_cast
      omega
    exact ⟨by omega, by exact_mod_cast room⟩
  have stored : (exponent + format.exponentBias +
      format.mantissaBitsWithoutImplicit).toNat = biased := by omega
  rw [UnpackedFloat.pack]
  simp only [stored]
  rw [if_neg (by omega)]
  have biased_toNat : (BitVec.ofNat format.exponentBits biased).toNat = biased :=
    Nat.mod_eq_of_lt (by omega)
  by_cases normal : 2 ^ format.mantissaBitsWithoutImplicit ≤ mantissa
  · have inside : BitVec.ofNat format.exponentBits biased ≠ -1#_ := by
      apply ne_top
      rw [biased_toNat]
      omega
    have nonzero : BitVec.ofNat format.exponentBits biased ≠ 0#_ := by
      rw [Ne, ← BitVec.toNat_inj, biased_toNat, BitVec.toNat_zero]
      omega
    have rest : mantissa % 2 ^ format.mantissaBitsWithoutImplicit =
        mantissa - 2 ^ format.mantissaBitsWithoutImplicit := by
      rw [Nat.mod_eq_sub_mod normal, Nat.mod_eq_of_lt (by omega)]
    have mantissa_eq :
        (1#1 ++ BitVec.ofNat format.mantissaBitsWithoutImplicit mantissa).toNat = mantissa := by
      rw [BitVec.toNat_append, ← Nat.shiftLeft_add_eq_or_of_lt (BitVec.isLt _),
        BitVec.toNat_ofNat, BitVec.toNat_ofNat, rest, Nat.shiftLeft_eq]
      omega
    have bits : mantissa.log2 = format.mantissaBitsWithoutImplicit := by
      rw [Nat.log2_eq_iff positive.ne', Nat.pow_succ]
      omega
    rw [if_pos (by rw [bits, Format.mantissaBits, Nat.add_comm]), unpack_packComponents,
      if_neg inside, if_neg nonzero]
    simp only [mantissa_eq, biased_toNat, UnpackedFloat.finite.injEq, true_and]
    omega
  · have subnormal := full (by omega)
    have mantissa_eq : (BitVec.ofNat format.mantissaBitsWithoutImplicit mantissa).toNat = mantissa :=
      Nat.mod_eq_of_lt (by omega)
    have nonzero : BitVec.ofNat format.mantissaBitsWithoutImplicit mantissa ≠ 0#_ := by
      rw [Ne, ← BitVec.toNat_inj, mantissa_eq, BitVec.toNat_zero]
      omega
    have short : mantissa.log2 + 1 ≠ format.mantissaBits := by
      have := (Nat.log2_lt positive.ne').mpr (Nat.lt_of_not_le normal)
      rw [Format.mantissaBits]
      omega
    have inside : BitVec.ofNat format.exponentBits 0 ≠ -1#_ := by
      apply ne_top
      rw [BitVec.toNat_zero]
      omega
    rw [if_neg short, unpack_packComponents, if_neg inside, if_pos rfl, dif_neg nonzero]
    simp only [mantissa_eq, UnpackedFloat.finite.injEq, true_and, BitVec.toNat_zero]
    omega

end Formats

theorem unpack_pack (side : Sign) (mantissa : Nat) (exponent : Int) (positive : 0 < mantissa)
    (storable : Storable mantissa exponent) :
    UnpackedFloat.unpack .binary64
        (UnpackedFloat.pack .binary64 (.finite side mantissa exponent positive)) =
      .finite side mantissa exponent positive := by
  have high : exponent + (1023 : Nat) + (52 : Nat) + 1 < 2048 := by
    have := storable.high
    omega
  exact unpack_stored .binary64 side mantissa exponent positive storable.small storable.low high
    storable.full

theorem eq_pack (x : Float) : x = Float.ofModel (.pack (ofDouble x).unpacked) := by
  rw [← unpack_eq_ofDouble]
  exact (Float.ofBits_toBits x).symm

theorem neg_pack (side : Sign) (mantissa : Nat) (exponent : Int) (positive : 0 < mantissa)
    (storable : Storable mantissa exponent) :
    -Float.ofModel (.pack (.finite side mantissa exponent positive)) =
      Float.ofModel (.pack (.finite (-side) mantissa exponent positive)) := by
  change Float.ofModel (.pack (UnpackedFloat.neg (UnpackedFloat.unpack .binary64
    (UnpackedFloat.pack .binary64 (.finite side mantissa exponent positive))))) = _
  rw [unpack_pack side mantissa exponent positive storable]
  rfl

end Cartograph.Number

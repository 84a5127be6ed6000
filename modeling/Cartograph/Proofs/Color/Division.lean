import Mathlib
import Cartograph.Proofs.Color.Extent

/-! Divisions on the way to a hue and back. Over fractions that are lost once something is divided
by zero, the conversions give what they give over fractions, so for channels in range they never
divide by zero. -/

namespace Cartograph

structure PartialRat where
  value? : Option ℚ
  deriving DecidableEq

namespace PartialRat

def defined (x : ℚ) : PartialRat := ⟨some x⟩

/-- What is not defined makes everything undefined that is computed from it. -/
def both (operation : ℚ → ℚ → Option ℚ) (x y : PartialRat) : PartialRat :=
  ⟨x.value?.bind fun a => y.value?.bind fun b => operation a b⟩

instance : Add PartialRat := ⟨both fun a b => some (a + b)⟩

instance : Sub PartialRat := ⟨both fun a b => some (a - b)⟩

instance : Mul PartialRat := ⟨both fun a b => some (a * b)⟩

instance : Div PartialRat := ⟨both fun a b => if b = 0 then none else some (a / b)⟩

def compares (test : ℚ → ℚ → Bool) (x y : PartialRat) : Bool :=
  x.value?.any fun a => y.value?.any fun b => test a b

instance : LT PartialRat := ⟨fun x y => compares (fun a b => decide (a < b)) x y = true⟩

instance : DecidableLT PartialRat := fun _ _ => inferInstanceAs (Decidable (_ = true))

instance : BEq PartialRat := ⟨compares fun a b => a == b⟩

instance (n : Nat) : OfNat PartialRat n := ⟨defined n⟩

variable (x y : ℚ)

@[simp] theorem defined_add : defined x + defined y = defined (x + y) := rfl

@[simp] theorem defined_sub : defined x - defined y = defined (x - y) := rfl

@[simp] theorem defined_mul : defined x * defined y = defined (x * y) := rfl

theorem defined_div (nonzero : y ≠ 0) : defined x / defined y = defined (x / y) :=
  congrArg PartialRat.mk (if_neg nonzero)

@[simp] theorem defined_lt : defined x < defined y ↔ x < y := decide_eq_true_iff

@[simp] theorem defined_beq : (defined x == defined y) = (x == y) := rfl

theorem ofNat_eq (n : Nat) [n.AtLeastTwo] :
    (OfNat.ofNat n : PartialRat) = defined (OfNat.ofNat n) := rfl

theorem zero_eq : (0 : PartialRat) = defined 0 := rfl

theorem one_eq : (1 : PartialRat) = defined 1 := rfl

@[simp] theorem least_defined :
    Number.least (defined x) (defined y) = defined (Number.least x y) := by
  simp only [Number.least, defined_beq, defined_lt, apply_ite defined]

@[simp] theorem greatest_defined :
    Number.greatest (defined x) (defined y) = defined (Number.greatest x y) := by
  simp only [Number.greatest, defined_beq, defined_lt, apply_ite defined]

end PartialRat

def Rgba.map {α β : Type} (f : α → β) (color : Rgba α) : Rgba β :=
  ⟨f color.red, f color.green, f color.blue, f color.alpha⟩

def Hsl.map {α β : Type} (f : α → β) (hsl : Hsl α) : Hsl β :=
  ⟨f hsl.hue, f hsl.saturation, f hsl.lightness⟩

namespace Rgba

open PartialRat

theorem wrapHue_defined (hue : ℚ) : wrapHue (defined hue) = defined (wrapHue hue) := by
  simp only [wrapHue, zero_eq, one_eq, defined_lt, defined_add, defined_sub, ← apply_ite defined]

theorem hsl_defined (grey : ℚ) (color : Rgba ℚ) (positive : 0 < grey) (inRange : color.InRange) :
    hsl (defined grey) (color.map defined) = (color.hsl grey).map defined := by
  have halved (x : ℚ) : defined x / defined 2 = defined (x / 2) := defined_div x 2 two_ne_zero
  simp only [hsl, map, least_defined, greatest_defined, least_channels, greatest_channels,
    highest_sub_lowest, defined_sub, defined_add, defined_lt, ofNat_eq, zero_eq, one_eq, halved]
  split
  · rfl
  next wide =>
    have spread_pos : 0 < color.spread := positive.trans_le (not_lt.mp wide)
    obtain ⟨sum_pos, rest_pos⟩ := color.sum_range inRange spread_pos
    have parted (x : ℚ) : defined x / defined 6 = defined (x / 6) := defined_div x 6 (by norm_num)
    have thirds (x : ℚ) : defined x / defined 3 = defined (x / 3) := defined_div x 3 three_ne_zero
    simp only [parted, thirds, defined_add, defined_sub, defined_beq,
      defined_div _ _ spread_pos.ne', defined_div _ _ sum_pos.ne', defined_div _ _ rest_pos.ne',
      ← apply_ite defined, wrapHue_defined, Hsl.map]

theorem channelOfHue_defined (low high hue : ℚ) :
    channelOfHue (defined low) (defined high) (defined hue) =
      defined (channelOfHue low high hue) := by
  have thirds : defined 2 / defined 3 = defined (2 / 3) := defined_div 2 3 three_ne_zero
  simp only [channelOfHue, ofNat_eq, one_eq, defined_lt, defined_add, defined_sub, defined_mul,
    ← apply_ite defined, thirds]

theorem turned_defined (hue : ℚ) :
    lowerHue 1 (raiseHue 1 (defined hue)) = defined (lowerHue 1 (raiseHue 1 hue)) := by
  have raised : raiseHue 1 (defined hue) = defined (raiseHue 1 hue) := by
    simp only [raiseHue, zero_eq, one_eq, defined_lt, defined_add, ← apply_ite defined]
  rw [raised]
  simp only [lowerHue, one_eq, defined_lt, defined_sub, ← apply_ite defined]

theorem channel_defined (low high hue : ℚ) :
    channel (defined low) (defined high) (defined hue) = defined (channel low high hue) := by
  rw [channel, turned_defined, channelOfHue_defined, channel]

theorem ofHsl_defined (alpha : ℚ) (hsl : Hsl ℚ) :
    ofHsl (defined alpha) (hsl.map defined) = (ofHsl alpha hsl).map defined := by
  have half : defined 1 / defined 2 = defined (1 / 2) := defined_div 1 2 two_ne_zero
  have third : defined 1 / defined 3 = defined (1 / 3) := defined_div 1 3 three_ne_zero
  simp only [ofHsl, Hsl.map, ofNat_eq, zero_eq, one_eq, defined_beq, defined_lt, defined_add,
    defined_sub, defined_mul, ← apply_ite defined, half, third, channel_defined]
  split <;> rfl

/-- Getting and setting a lightness divides by nothing but the spread and the sum of the extreme
channels of a color that is not grey, and those are not zero. -/
theorem lightness_defined (grey : ℚ) (color : Rgba ℚ) (positive : 0 < grey)
    (inRange : color.InRange) :
    (color.map defined).lightnessWithin (defined grey) = defined (color.lightnessWithin grey) ∧
      ∀ lightness, (color.map defined).withLightnessWithin (defined grey) (defined lightness) =
        (color.withLightnessWithin grey lightness).map defined := by
  have converted := hsl_defined grey color positive inRange
  constructor
  · rw [lightnessWithin, converted]
    rfl
  · intro lightness
    rw [withLightnessWithin, converted, withLightnessWithin, ← ofHsl_defined]
    rfl

theorem darken_defined (grey : ℚ) (color : Rgba ℚ) (positive : 0 < grey) (inRange : color.InRange)
    (factor : ℚ) : (color.map defined).darkenWithin (defined grey) (defined factor) =
      (color.darkenWithin grey factor).map defined := by
  obtain ⟨read, written⟩ := lightness_defined grey color positive inRange
  rw [darkenWithin, read, defined_mul, written, darkenWithin]

end Rgba
end Cartograph

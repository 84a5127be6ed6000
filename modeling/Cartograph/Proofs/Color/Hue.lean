import Cartograph.Color.Lightness
import Cartograph.Proofs.Number.Special

/-! Hues in double arithmetic. Whatever the channels are, what the hue of a color is put together
from is no number or lies between zero and one, so the hues of the channels leave the circle by less
than a turn and the loops that bring them back make one turn at most. -/

namespace Cartograph

open Number

namespace Rgba

theorem zero_amid : Amid 0 1 0 := .inr ⟨rfl, le_rfl, zero_le_one⟩

theorem one_amid : Amid 1 1 1 := .inr ⟨rfl, value_one.ge, value_one.le⟩

theorem third_amid : Amid 0 1 (1 / 3) := by
  have computed := div_computes 1 3 rfl rfl (by norm_num [value_three])
  rw [value_one, value_three] at computed
  exact .inr (computed.between isDouble_zero isDouble_one (by norm_num) (by norm_num))

theorem two_thirds_amid : Amid 0 1 (2 / 3) := by
  have computed := div_computes 2 3 rfl rfl (by norm_num [value_three])
  rw [value_two, value_three] at computed
  exact .inr (computed.between isDouble_zero isDouble_one (by norm_num) (by norm_num))

section Distance

variable (low high channel : Float)

/-- How far a channel is from the highest one, with half a spread before it, in spreads. -/
def distance : Float := ((high - channel) / 6 + (high - low) / 2) / (high - low)

theorem nan_distance (absent : channel.isNaN = true) : (distance low high channel).isNaN = true :=
  nan_div _ _ (.inl (nan_add _ _ (.inl (nan_div _ _ (.inl (nan_sub _ _ (.inr absent)))))))

theorem nan_distance_of_spread (special : (high - low).isFinite = false) :
    (distance low high channel).isNaN = true := by
  rcases special_cases _ special with absent | ⟨side, infinite⟩
  · exact nan_div _ _ (.inr ((isNaN_iff _).mpr absent))
  · have half := infinite_div (high - low) 2 side .positive (2 ^ 52) (-51) (by decide) infinite rfl
    exact nan_of_infinite _ _ _ side half _ infinite

theorem distance_between (wide : ¬ high - low < Color.greySpread)
    (finite : (high - low).isFinite = true) (number : channel.isNaN = false)
    (above : ordinal low ≤ ordinal channel) (below : ordinal channel ≤ ordinal high) :
    (distance low high channel).isFinite = true ∧ 0 ≤ value (distance low high channel) ∧
      value (distance low high channel) ≤ 1 := by
  obtain ⟨high_finite, low_finite⟩ := finite_of_sub high low finite
  obtain ⟨channel_finite, low_le, le_high⟩ :=
    finite_of_between low channel high low_finite high_finite number above below
  obtain ⟨difference_finite, difference_nonneg, difference_le⟩ :=
    sub_within low channel high low_finite channel_finite high_finite finite low_le le_high
  have large : (2 : ℚ) ^ (-100 : Int) ≤ value (high - low) := by
    have grey : (2 : ℚ) ^ (-100 : Int) ≤ value Color.greySpread := by decide +kernel
    rw [lt_iff_value _ _ finite rfl, not_lt] at wide
    exact grey.trans wide
  have positive : 0 < value (high - low) := lt_of_lt_of_le (by positivity) large
  have spread_double := isDouble_value _ finite
  have half_double := isDouble_half _ finite large
  have half : ((high - low) / 2).isFinite = true ∧
      value (high - low) / 2 ≤ value ((high - low) / 2) ∧
      value ((high - low) / 2) ≤ value (high - low) / 2 := by
    have computed := div_computes (high - low) 2 finite rfl (by rw [value_two]; norm_num)
    rw [value_two] at computed
    exact computed.between half_double half_double le_rfl le_rfl
  have sixth : ((high - channel) / 6).isFinite = true ∧ 0 ≤ value ((high - channel) / 6) ∧
      value ((high - channel) / 6) ≤ value (high - low) / 2 := by
    have computed := div_computes (high - channel) 6 difference_finite rfl
      (by rw [value_six]; norm_num)
    rw [value_six] at computed
    exact computed.between isDouble_zero half_double (by positivity) (by linarith)
  have sum : ((high - channel) / 6 + (high - low) / 2).isFinite = true ∧
      0 ≤ value ((high - channel) / 6 + (high - low) / 2) ∧
      value ((high - channel) / 6 + (high - low) / 2) ≤ value (high - low) :=
    (add_computes _ _ sixth.1 half.1).between isDouble_zero spread_double (by linarith)
      (by linarith)
  exact (div_computes _ _ sum.1 finite positive.ne').between isDouble_zero isDouble_one
    (div_nonneg sum.2.1 positive.le) ((div_le_one positive).mpr sum.2.2)

end Distance

theorem distance_amid (low high channel : Float) (wide : ¬ high - low < Color.greySpread)
    (inside : channel.isNaN = false →
      ordinal low ≤ ordinal channel ∧ ordinal channel ≤ ordinal high) :
    Amid 0 1 (distance low high channel) := by
  rcases Bool.eq_false_or_eq_true channel.isNaN with absent | number
  · exact .inl (nan_distance low high channel absent)
  · rcases Bool.eq_false_or_eq_true (high - low).isFinite with finite | special
    · obtain ⟨above, below⟩ := inside number
      exact .inr (distance_between low high channel wide finite number above below)
    · exact .inl (nan_distance_of_spread low high channel special)

section Circle

variable (hue : Float)

theorem raised_amid (amid : Amid (-1) 2 hue) : Amid 0 2 (if hue < 0 then hue + 1 else hue) := by
  split
  · next negative =>
    rcases amid with absent | ⟨finite, low, high⟩
    · exact .inl (nan_add _ _ (.inl absent))
    · rw [lt_iff_value hue 0 finite rfl, value_zero] at negative
      have below : Amid (-1) 0 hue := .inr ⟨finite, low, negative.le⟩
      exact below.add one_amid isDouble_zero isDouble_two (by norm_num) (by norm_num)
  · next not_negative =>
    rcases amid with absent | ⟨finite, low, high⟩
    · exact .inl absent
    · rw [lt_iff_value hue 0 finite rfl, value_zero, not_lt] at not_negative
      exact .inr ⟨finite, not_negative, high⟩

theorem lowered_amid (amid : Amid 0 2 hue) : Amid 0 1 (if 1 < hue then hue - 1 else hue) := by
  split
  · next more =>
    rcases amid with absent | ⟨finite, low, high⟩
    · exact .inl (nan_sub _ _ (.inl absent))
    · rw [lt_iff_value 1 hue rfl finite, value_one] at more
      have above : Amid 1 2 hue := .inr ⟨finite, more.le, high⟩
      exact above.sub one_amid isDouble_zero isDouble_one (by norm_num) (by norm_num)
  · next not_more =>
    rcases amid with absent | ⟨finite, low, high⟩
    · exact .inl absent
    · rw [lt_iff_value 1 hue rfl finite, value_one, not_lt] at not_more
      exact .inr ⟨finite, low, not_more⟩

theorem wrapHue_amid (amid : Amid (-1) 2 hue) : Amid 0 1 (wrapHue hue) :=
  lowered_amid _ (raised_amid hue amid)

end Circle

section Hue

variable (color : Color)

theorem inside_extremes (channel : Float) (member : channel ∈ [color.red, color.green, color.blue])
    (number : channel.isNaN = false) :
    ordinal (least (least color.red color.green) color.blue) ≤ ordinal channel ∧
      ordinal channel ≤ ordinal (greatest (greatest color.red color.green) color.blue) := by
  obtain ⟨red_low, green_low⟩ := least_cases color.red color.green
  obtain ⟨red_high, green_high⟩ := greatest_cases color.red color.green
  obtain ⟨two_low, blue_low⟩ := least_cases (least color.red color.green) color.blue
  obtain ⟨two_high, blue_high⟩ := greatest_cases (greatest color.red color.green) color.blue
  simp only [List.mem_cons, List.not_mem_nil, or_false] at member
  rcases member with rfl | rfl | rfl
  · exact ⟨(two_low (red_low number).1).2.trans (red_low number).2,
      (red_high number).2.trans (two_high (red_high number).1).2⟩
  · exact ⟨(two_low (green_low number).1).2.trans (green_low number).2,
      (green_high number).2.trans (two_high (green_high number).1).2⟩
  · exact ⟨(blue_low number).2, (blue_high number).2⟩

theorem hue_amid : Amid 0 1 (color.hsl Color.greySpread).hue := by
  rw [hsl]
  simp only
  split
  · exact zero_amid
  next wide =>
    have near (channel : Float) (member : channel ∈ [color.red, color.green, color.blue]) :=
      distance_amid (least (least color.red color.green) color.blue)
        (greatest (greatest color.red color.green) color.blue) channel wide
        (color.inside_extremes channel member)
    have red := near color.red (by simp)
    have green := near color.green (by simp)
    have blue := near color.blue (by simp)
    apply wrapHue_amid
    split
    · exact (blue.sub green isDouble_minus_one isDouble_one (by norm_num) (by norm_num)).mono
        le_rfl one_le_two
    · split
      · have ahead := third_amid.add red isDouble_zero isDouble_two (by norm_num) (by norm_num)
        exact ahead.sub blue isDouble_minus_one isDouble_two (by norm_num) (by norm_num)
      · have ahead := two_thirds_amid.add green isDouble_zero isDouble_two (by norm_num)
          (by norm_num)
        exact ahead.sub red isDouble_minus_one isDouble_two (by norm_num) (by norm_num)

def hues {α : Type} [Add α] [Sub α] [Div α] [OfNat α 1] [OfNat α 3] (hue : α) : List α :=
  [hue + 1 / 3, hue, hue - 1 / 3]

theorem hues_amid (hue : Float) (member : hue ∈ hues (color.hsl Color.greySpread).hue) :
    Amid (-1) 2 hue := by
  have on_circle := color.hue_amid
  simp only [hues, List.mem_cons, List.not_mem_nil, or_false] at member
  rcases member with rfl | rfl | rfl
  · exact (on_circle.add third_amid isDouble_zero isDouble_two (by norm_num) (by norm_num)).mono
      (by norm_num) le_rfl
  · exact on_circle.mono (by norm_num) one_le_two
  · exact (on_circle.sub third_amid isDouble_minus_one isDouble_one (by norm_num)
      (by norm_num)).mono le_rfl one_le_two

end Hue

inductive While (test : Float → Prop) (turn : Float → Float) : Nat → Float → Float → Prop
  | stop (x : Float) : ¬ test x → While test turn 0 x x
  | again (turns : Nat) (x y : Float) :
    test x → While test turn turns (turn x) y → While test turn (turns + 1) x y

theorem While.unique {test : Float → Prop} {turn : Float → Float} {turns others : Nat}
    {x y z : Float} (first : While test turn turns x y) (second : While test turn others x z) :
    turns = others ∧ y = z := by
  induction first generalizing others with
  | stop x off =>
    cases second with
    | stop _ _ => exact ⟨rfl, rfl⟩
    | again _ _ _ on _ => exact absurd on off
  | again turns x y on rest later =>
    cases second with
    | stop _ off => exact absurd on off
    | again more _ _ _ others =>
      obtain ⟨rfl, rfl⟩ := later others
      exact ⟨rfl, rfl⟩

section Loops

def Raises : Nat → Float → Float → Prop := While (· < 0) (· + 1)

def Lowers : Nat → Float → Float → Prop := While (1 < ·) (· - 1)

variable (hue : Float)

theorem not_negative (amid : Amid 0 2 hue) : ¬ hue < 0 := by
  rcases amid with absent | ⟨finite, low, -⟩
  · intro less
    rw [(numbers_of_lt hue 0 less).1] at absent
    cases absent
  · rw [lt_iff_value hue 0 finite rfl, value_zero]
    exact low.not_gt

theorem not_above (amid : Amid 0 1 hue) : ¬ 1 < hue := by
  rcases amid with absent | ⟨finite, -, high⟩
  · intro less
    rw [(numbers_of_lt 1 hue less).2] at absent
    cases absent
  · rw [lt_iff_value 1 hue rfl finite, value_one]
    exact high.not_gt

theorem raises_once (amid : Amid (-1) 2 hue) : ∃ turns ≤ 1, Raises turns hue (raiseHue 1 hue) := by
  have settled := not_negative _ (raised_amid hue amid)
  rw [raiseHue, raiseHue]
  by_cases negative : hue < 0
  · rw [if_pos negative] at settled ⊢
    exact ⟨1, le_rfl, .again 0 _ _ negative (.stop _ settled)⟩
  · rw [if_neg negative]
    exact ⟨0, zero_le_one, .stop _ negative⟩

theorem lowers_once (amid : Amid 0 2 hue) : ∃ turns ≤ 1, Lowers turns hue (lowerHue 1 hue) := by
  have settled := not_above _ (lowered_amid hue amid)
  rw [lowerHue, lowerHue]
  by_cases more : 1 < hue
  · rw [if_pos more] at settled ⊢
    exact ⟨1, le_rfl, .again 0 _ _ more (.stop _ settled)⟩
  · rw [if_neg more]
    exact ⟨0, zero_le_one, .stop _ more⟩

def ChannelBy (low high hue result : Float) : Prop :=
  ∃ raises raised lowers lowered, Raises raises hue raised ∧ Lowers lowers raised lowered ∧
    result = channelOfHue low high lowered

theorem channelBy_iff (amid : Amid (-1) 2 hue) (low high result : Float) :
    ChannelBy low high hue result ↔ result = channel low high hue := by
  obtain ⟨raises, -, raised⟩ := raises_once hue amid
  obtain ⟨lowers, -, lowered⟩ := lowers_once _ (raised_amid hue amid)
  constructor
  · rintro ⟨_, _, _, _, other_raised, other_lowered, rfl⟩
    obtain ⟨-, rfl⟩ := While.unique raised other_raised
    obtain ⟨-, rfl⟩ := While.unique lowered other_lowered
    rfl
  · rintro rfl
    exact ⟨raises, _, lowers, _, raised, lowered, rfl⟩

end Loops

def ColorBy (alpha : Float) (hsl : Hsl Float) (result : Color) : Prop :=
  let saturation := hsl.saturation
  let lightness := hsl.lightness
  if saturation == 0 then result = ⟨lightness, lightness, lightness, alpha⟩
  else
    let high :=
      if lightness < 1 / 2 then lightness * (1 + saturation)
      else (lightness + saturation) - saturation * lightness
    let low := 2 * lightness - high
    ChannelBy low high (hsl.hue + 1 / 3) result.red ∧ ChannelBy low high hsl.hue result.green ∧
      ChannelBy low high (hsl.hue - 1 / 3) result.blue ∧ result.alpha = alpha

theorem colorBy_iff (alpha : Float) (hsl : Hsl Float) (result : Color)
    (amid : ∀ hue ∈ hues hsl.hue, Amid (-1) 2 hue) :
    ColorBy alpha hsl result ↔ result = ofHsl alpha hsl := by
  unfold ColorBy ofHsl
  dsimp only
  split
  · rfl
  · rw [channelBy_iff _ (amid _ (by simp [hues])), channelBy_iff _ (amid _ (by simp [hues])),
      channelBy_iff _ (amid _ (by simp [hues]))]
    obtain ⟨red, green, blue, alpha'⟩ := result
    simp only [Rgba.mk.injEq]

/-- Setting a lightness comes to an end for all channels and lightnesses: each hue is no number or
less than a turn off the circle, both loops make one turn at most, and there is one result. -/
theorem withLightness_ends (color : Color) (lightness : Float) :
    (∀ hue ∈ hues (color.hsl Color.greySpread).hue,
      (hue.isNaN = true ∨ -1 ≤ hue ∧ hue ≤ 2) ∧
        ∃ raises ≤ 1, ∃ raised, Raises raises hue raised ∧
          ∃ lowers ≤ 1, ∃ lowered, Lowers lowers raised lowered) ∧
      ∀ result, ColorBy color.alpha { color.hsl Color.greySpread with lightness } result ↔
        result = Color.withLightness color lightness := by
  have amid := color.hues_amid
  constructor
  · intro hue member
    obtain ⟨raises, raises_le, raised⟩ := raises_once hue (amid hue member)
    obtain ⟨lowers, lowers_le, lowered⟩ := lowers_once _ (raised_amid hue (amid hue member))
    refine ⟨?_, raises, raises_le, _, raised, lowers, lowers_le, _, lowered⟩
    rcases amid hue member with absent | ⟨finite, low, high⟩
    · exact .inl absent
    · right
      rw [le_iff_value (-1) hue rfl finite, le_iff_value hue 2 finite rfl,
        value_minus_one, value_two]
      exact ⟨low, high⟩
  · intro result
    exact colorBy_iff _ _ _ amid

end Rgba
end Cartograph

import Mathlib
import Cartograph.Proofs.Color.Circle
import Cartograph.Proofs.Color.Division

/-! Lightness as a lens on colors, in exact arithmetic. The hue of a color says in which sixth of
the circle and how far into it the color lies, the lightness is the middle between its extreme
channels, and the saturation is the half of their distance, measured by how far black or white is
from the middle. Setting a lightness moves the middle and keeps the other two. -/

namespace Cartograph
namespace Rgba

open PartialRat (defined)

def portion (color : Rgba ℚ) (channel : ℚ) : ℚ := (channel - color.lowest) / color.spread

def LiesIn (color : Rgba ℚ) (number : Fin 6) (t : ℚ) : Prop :=
  color.channels = (sharesIn number t).map fun share => color.lowest + color.spread * share

variable (color : Rgba ℚ) (grey : ℚ)

section Reading

variable (positive : 0 < color.spread)

include positive

theorem channel_of_portion (channel : ℚ) :
    color.lowest + color.spread * color.portion channel = channel := by
  rw [portion, mul_div_cancel₀ _ positive.ne', add_sub_cancel]

omit positive in
theorem portion_lowest : color.portion color.lowest = 0 := by
  rw [portion, sub_self, zero_div]

theorem portion_highest : color.portion color.highest = 1 := div_self positive.ne'

theorem portion_eq_one (channel : ℚ) : color.portion channel = 1 ↔ channel = color.highest := by
  constructor
  · intro all
    rw [← color.channel_of_portion positive channel, all, mul_one, spread, add_sub_cancel]
  · rintro rfl
    exact color.portion_highest positive

theorem portion_range (channel : ℚ) (member : channel ∈ color.channels) :
    0 ≤ color.portion channel ∧ color.portion channel ≤ 1 := by
  constructor
  · exact div_nonneg (sub_nonneg.mpr (color.lowest_le _ member)) positive.le
  · rw [portion, div_le_one positive]
    exact sub_le_sub_right (color.le_highest _ member) _

theorem hue_eq (wide : grey ≤ color.spread) : (color.hsl grey).hue =
    hueOfShares (color.portion color.red) (color.portion color.green)
      (color.portion color.blue) := by
  rw [hsl_eq, if_neg (not_lt.mpr wide), hueOfShares]
  simp only [color.portion_eq_one positive, beq_iff_eq]
  congr 1
  split_ifs <;> simp only [portion] <;> field_simp <;> ring

theorem exists_liesIn (wide : grey ≤ color.spread) : ∃ (number : Fin 6) (t : ℚ), 0 ≤ t ∧ t ≤ 1 ∧
    (color.hsl grey).hue = (number + t) / 6 ∧ color.LiesIn number t := by
  have range : ∀ share ∈ color.channels.map color.portion, 0 ≤ share ∧ share ≤ 1 := by
    simpa only [List.forall_mem_map] using color.portion_range positive
  have low : 0 ∈ color.channels.map color.portion :=
    List.mem_map.mpr ⟨_, color.lowest_mem, color.portion_lowest⟩
  have high : 1 ∈ color.channels.map color.portion :=
    List.mem_map.mpr ⟨_, color.highest_mem, color.portion_highest positive⟩
  obtain ⟨number, t, nonneg, le_one, hue, shares⟩ := exists_place _ _ _ range low high
  refine ⟨number, t, nonneg, le_one, (color.hue_eq grey positive wide).trans hue, ?_⟩
  have returned : (fun share => color.lowest + color.spread * share) ∘ color.portion = id :=
    funext (color.channel_of_portion positive)
  calc color.channels
    _ = (color.channels.map color.portion).map fun share =>
        color.lowest + color.spread * share := by rw [List.map_map, returned, List.map_id]
    _ = (sharesIn number t).map fun share => color.lowest + color.spread * share :=
        congrArg _ shares

theorem saturation_eq (wide : grey ≤ color.spread) (inRange : color.InRange) :
    (color.hsl grey).saturation * min (color.lightnessWithin grey)
        (1 - color.lightnessWithin grey) = color.spread / 2 ∧
      0 ≤ (color.hsl grey).saturation ∧ (color.hsl grey).saturation ≤ 1 := by
  have low := color.lowest_nonneg inRange
  have high := color.highest_le_one inRange
  obtain ⟨sum_pos, rest_pos⟩ := color.sum_range inRange positive
  have extent : color.spread = color.highest - color.lowest := rfl
  rw [lightness_eq, hsl_eq, if_neg (not_lt.mpr wide)]
  dsimp only
  split
  · next dark =>
    rw [min_eq_left (by linarith)]
    refine ⟨by field_simp, by positivity, ?_⟩
    rw [div_le_one sum_pos]
    linarith
  · next light =>
    rw [min_eq_right (by linarith)]
    refine ⟨by field_simp, by positivity, ?_⟩
    rw [div_le_one rest_pos]
    linarith

end Reading

theorem liesIn_of_even (even : color.spread = 0) (number : Fin 6) (t : ℚ) :
    color.LiesIn number t := by
  have same (channel : ℚ) (member : channel ∈ color.channels) : channel = color.lowest :=
    le_antisymm ((color.le_highest _ member).trans_eq (sub_eq_zero.mp even))
      (color.lowest_le _ member)
  simp only [LiesIn, channels, sharesIn, List.map_cons, List.map_nil, even, zero_mul, add_zero,
    same _ color.red_mem, same _ color.green_mem, same _ color.blue_mem]

/-- A color has a place on the circle, and unless it is only nearly grey its channels are what its
place, its saturation and its lightness say. -/
theorem exists_place_of_color (positive : 0 < grey) (inRange : color.InRange) :
    ∃ (number : Fin 6) (t : ℚ), (0 ≤ t ∧ t ≤ 1) ∧ (color.hsl grey).hue = (number + t) / 6 ∧
      (0 ≤ (color.hsl grey).saturation ∧ (color.hsl grey).saturation ≤ 1) ∧
      (color.spread = 0 ∨ grey ≤ color.spread → color.LiesIn number t ∧
        (color.hsl grey).saturation * min (color.lightnessWithin grey)
          (1 - color.lightnessWithin grey) = color.spread / 2) := by
  by_cases wide : grey ≤ color.spread
  · have spread_pos := positive.trans_le wide
    obtain ⟨number, t, nonneg, le_one, hue, lies⟩ := color.exists_liesIn grey spread_pos wide
    obtain ⟨reach, saturation⟩ := color.saturation_eq grey spread_pos wide inRange
    exact ⟨number, t, ⟨nonneg, le_one⟩, hue, saturation, fun _ => ⟨lies, reach⟩⟩
  · have hueless : color.hsl grey = ⟨0, 0, (color.lowest + color.highest) / 2⟩ := by
      rw [hsl_eq, if_pos (not_le.mp wide)]
    rw [hueless]
    refine ⟨0, 0, ⟨le_rfl, zero_le_one⟩, by simp, ⟨le_rfl, zero_le_one⟩, fun clear => ?_⟩
    have even : color.spread = 0 := clear.resolve_right wide
    exact ⟨color.liesIn_of_even even 0 0, by rw [even, zero_mul, zero_div]⟩

def channelAt (saturation lightness share : ℚ) : ℚ :=
  lightness + saturation * min lightness (1 - lightness) * (2 * share - 1)

theorem ofHsl_channels (alpha : ℚ) (hsl : Hsl ℚ) : (ofHsl alpha hsl).channels =
    (shares hsl.hue).map (channelAt hsl.saturation hsl.lightness) := by
  obtain ⟨hue, saturation, lightness⟩ := hsl
  simp only [ofHsl, beq_iff_eq]
  split
  · next grey => simp [channels, shares, channelAt, grey]
  · have high : (if lightness < 1 / 2 then lightness * (1 + saturation)
        else lightness + saturation - saturation * lightness) =
        lightness + saturation * min lightness (1 - lightness) := by
      split
      · next dark =>
        rw [min_eq_left (by linarith)]
        ring
      · next light =>
        rw [min_eq_right (by linarith)]
        ring
    rw [high]
    simp only [channels, shares, List.map_cons, List.map_nil, channelAt]
    rw [channel_eq, channel_eq, channel_eq]
    ring_nf

theorem ofHsl_alpha (alpha : ℚ) (hsl : Hsl ℚ) : (ofHsl alpha hsl).alpha = alpha := by
  rw [ofHsl]
  split <;> rfl

theorem withLightness_channels (lightness : ℚ) :
    (color.withLightnessWithin grey lightness).channels =
      (shares (color.hsl grey).hue).map (channelAt (color.hsl grey).saturation lightness) :=
  ofHsl_channels ..

theorem withLightness_alpha (lightness : ℚ) :
    (color.withLightnessWithin grey lightness).alpha = color.alpha :=
  ofHsl_alpha ..

section Course

variable (saturation : ℚ) (nonneg : 0 ≤ saturation) (le_one : saturation ≤ 1)
  (share : ℚ) (share_range : 0 ≤ share ∧ share ≤ 1)

include nonneg le_one share_range

theorem reach_range : |saturation * (2 * share - 1)| ≤ 1 := by
  have swing : |2 * share - 1| ≤ 1 := abs_le.mpr ⟨by linarith, by linarith⟩
  rw [abs_mul, abs_of_nonneg nonneg]
  exact mul_le_one₀ le_one (abs_nonneg _) swing

theorem channelAt_range (lightness : ℚ) (low : 0 ≤ lightness) (high : lightness ≤ 1) :
    0 ≤ channelAt saturation lightness share ∧ channelAt saturation lightness share ≤ 1 := by
  have reach := abs_le.mp (reach_range saturation nonneg le_one share share_range)
  have room : 0 ≤ min lightness (1 - lightness) := le_min low (by linarith)
  have below : min lightness (1 - lightness) ≤ lightness := min_le_left ..
  have above : min lightness (1 - lightness) ≤ 1 - lightness := min_le_right ..
  unfold channelAt
  constructor <;> nlinarith

theorem channelAt_mono {lightness lighter : ℚ} (order : lightness ≤ lighter) :
    channelAt saturation lightness share ≤ channelAt saturation lighter share := by
  have reach := reach_range saturation nonneg le_one share share_range
  have room : |min lighter (1 - lighter) - min lightness (1 - lightness)| ≤
      lighter - lightness := by
    apply (abs_min_sub_min_le_max ..).trans
    rw [sub_sub_sub_cancel_left, abs_sub_comm lightness lighter, max_self,
      abs_of_nonneg (sub_nonneg.mpr order)]
  have moved : |saturation * (2 * share - 1) *
      (min lighter (1 - lighter) - min lightness (1 - lightness))| ≤ lighter - lightness := by
    rw [abs_mul]
    exact (mul_le_of_le_one_left (abs_nonneg _) reach).trans room
  unfold channelAt
  linarith [(abs_le.mp moved).1]

end Course

theorem lightness_of_channels (number : Fin 6) (t saturation lightness : ℚ)
    (t_range : 0 ≤ t ∧ t ≤ 1) (reach : 0 ≤ saturation * min lightness (1 - lightness))
    (placed : color.channels = (sharesIn number t).map (channelAt saturation lightness)) :
    color.lightnessWithin grey = lightness := by
  have low : color.lowest = channelAt saturation lightness 0 := by
    apply color.lowest_eq
    · rw [placed]
      exact List.mem_map_of_mem (zero_mem_sharesIn number t)
    · rw [placed, List.forall_mem_map]
      intro share member
      have range := sharesIn_range number t t_range.1 t_range.2 share member
      unfold channelAt
      nlinarith
  have high : color.highest = channelAt saturation lightness 1 := by
    apply color.highest_eq
    · rw [placed]
      exact List.mem_map_of_mem (one_mem_sharesIn number t)
    · rw [placed, List.forall_mem_map]
      intro share member
      have range := sharesIn_range number t t_range.1 t_range.2 share member
      unfold channelAt
      nlinarith
  rw [lightness_eq, low, high, channelAt, channelAt]
  ring

/-- Every lightness is set by moving all channels along one course, and the course of a color that
is not only nearly grey goes through the color. -/
theorem exists_course (positive : 0 < grey) (inRange : color.InRange) :
    ∃ (number : Fin 6) (t saturation : ℚ), (0 ≤ t ∧ t ≤ 1) ∧ (0 ≤ saturation ∧ saturation ≤ 1) ∧
      (∀ lightness, (color.withLightnessWithin grey lightness).channels =
        (sharesIn number t).map (channelAt saturation lightness)) ∧
      (color.spread = 0 ∨ grey ≤ color.spread →
        color.withLightnessWithin grey (color.lightnessWithin grey) = color) := by
  obtain ⟨number, t, t_range, hue, saturation_range, clear⟩ :=
    color.exists_place_of_color grey positive inRange
  have course (lightness : ℚ) : (color.withLightnessWithin grey lightness).channels =
      (sharesIn number t).map (channelAt (color.hsl grey).saturation lightness) := by
    rw [withLightness_channels, hue, shares_eq number t t_range.1 t_range.2]
  refine ⟨number, t, _, t_range, saturation_range, course, fun even_or_wide => ?_⟩
  obtain ⟨lies, reach⟩ := clear even_or_wide
  refine eq_of_channels ?_ (color.withLightness_alpha ..)
  rw [course, lies]
  congr 1
  funext share
  rw [channelAt, reach, lightness_eq, spread]
  ring

section Lens

variable (positive : 0 < grey) (inRange : color.InRange)

include positive inRange

theorem withLightness_mono {lightness lighter : ℚ} (order : lightness ≤ lighter) :
    (color.withLightnessWithin grey lightness).channels.Forall₂ (· ≤ ·)
      (color.withLightnessWithin grey lighter).channels := by
  obtain ⟨number, t, saturation, t_range, saturation_range, course, -⟩ :=
    color.exists_course grey positive inRange
  rw [course, course, List.forall₂_map_left_iff, List.forall₂_map_right_iff, List.forall₂_same]
  intro share member
  exact channelAt_mono _ saturation_range.1 saturation_range.2 share
    (sharesIn_range number t t_range.1 t_range.2 share member) order

theorem withLightness_inRange (lightness : ℚ) (low : 0 ≤ lightness) (high : lightness ≤ 1) :
    (color.withLightnessWithin grey lightness).InRange := by
  obtain ⟨number, t, saturation, t_range, saturation_range, course, -⟩ :=
    color.exists_course grey positive inRange
  rw [InRange, course, List.forall_mem_map]
  intro share member
  exact channelAt_range _ saturation_range.1 saturation_range.2 share
    (sharesIn_range number t t_range.1 t_range.2 share member) lightness low high

theorem lightness_withLightness (lightness : ℚ) (low : 0 ≤ lightness) (high : lightness ≤ 1) :
    (color.withLightnessWithin grey lightness).lightnessWithin grey = lightness := by
  obtain ⟨number, t, saturation, t_range, saturation_range, course, -⟩ :=
    color.exists_course grey positive inRange
  have reach : 0 ≤ saturation * min lightness (1 - lightness) :=
    mul_nonneg saturation_range.1 (le_min low (sub_nonneg.mpr high))
  exact lightness_of_channels _ grey number t saturation lightness t_range reach (course lightness)

theorem withLightness_lightness (clear : color.spread = 0 ∨ grey ≤ color.spread) :
    color.withLightnessWithin grey (color.lightnessWithin grey) = color := by
  obtain ⟨_, _, _, _, _, _, returns⟩ := color.exists_course grey positive inRange
  exact returns clear

theorem darken_le (clear : color.spread = 0 ∨ grey ≤ color.spread) (factor : ℚ)
    (le_one : factor ≤ 1) :
    (color.darkenWithin grey factor).channels.Forall₂ (· ≤ ·) color.channels := by
  have darker : color.lightnessWithin grey * factor ≤ color.lightnessWithin grey :=
    mul_le_of_le_one_right (color.lightness_range grey inRange).1 le_one
  have below := color.withLightness_mono grey positive inRange darker
  rwa [color.withLightness_lightness grey positive inRange clear] at below

end Lens

/-- Getting and setting the lightness of a color in range form a lens: nothing is divided by zero,
what was set is got back, channels stay in range and rise with the lightness, setting what was got
changes nothing unless the color is only nearly grey, and alpha is kept. -/
theorem lightness_is_lens (positive : 0 < grey) (inRange : color.InRange) :
    let get := lightnessWithin grey
    let set := withLightnessWithin grey
    let getPartial := lightnessWithin (defined grey)
    let setPartial := withLightnessWithin (defined grey)
    getPartial (color.map defined) = defined (get color) ∧
      (∀ lightness, 0 ≤ lightness → lightness ≤ 1 →
        setPartial (color.map defined) (defined lightness) = (set color lightness).map defined ∧
        getPartial (setPartial (color.map defined) (defined lightness)) = defined lightness ∧
        get (set color lightness) = lightness ∧ (set color lightness).InRange ∧
        ∀ lighter, lightness ≤ lighter → lighter ≤ 1 →
          (set color lightness).channels.Forall₂ (· ≤ ·) (set color lighter).channels) ∧
      (color.spread = 0 ∨ grey ≤ color.spread → set color (get color) = color ∧
        ∀ factor, 0 ≤ factor → factor ≤ 1 →
          (color.darkenWithin grey factor).channels.Forall₂ (· ≤ ·) color.channels) ∧
      (∀ lightness, (set color lightness).alpha = color.alpha) ∧
      ∀ factor, (color.darkenWithin grey factor).alpha = color.alpha ∧
        (color.map defined).darkenWithin (defined grey) (defined factor) =
          (color.darkenWithin grey factor).map defined := by
  intro get set getPartial setPartial
  obtain ⟨read, written⟩ := lightness_defined grey color positive inRange
  refine ⟨read, ?_, ?_, color.withLightness_alpha grey, ?_⟩
  · intro lightness low high
    have within := color.withLightness_inRange grey positive inRange lightness low high
    have got := color.lightness_withLightness grey positive inRange lightness low high
    refine ⟨written lightness, ?_, got, within, ?_⟩
    · calc getPartial (setPartial (color.map defined) (defined lightness))
        _ = getPartial ((set color lightness).map defined) :=
          congrArg getPartial (written lightness)
        _ = defined (get (set color lightness)) := (lightness_defined grey _ positive within).1
        _ = defined lightness := congrArg defined got
    · intro lighter order _
      exact color.withLightness_mono grey positive inRange order
  · intro clear
    refine ⟨color.withLightness_lightness grey positive inRange clear, fun factor _ le_one => ?_⟩
    exact color.darken_le grey positive inRange clear factor le_one
  · intro factor
    exact ⟨color.withLightness_alpha .., darken_defined grey color positive inRange factor⟩

def terracotta : Rgba ℚ := ⟨4 / 5, 2 / 5, 3 / 10, 1⟩

theorem terracotta_on_lens : (0 : ℚ) < 5e-7 ∧ terracotta.InRange ∧ 5e-7 ≤ terracotta.spread ∧
    terracotta.withLightnessWithin 5e-7 (terracotta.lightnessWithin 5e-7) = terracotta ∧
    ∀ lightness, 0 ≤ lightness → lightness ≤ 1 →
      (terracotta.withLightnessWithin 5e-7 lightness).lightnessWithin 5e-7 = lightness := by
  have positive : (0 : ℚ) < 5e-7 := by norm_num
  have inRange : terracotta.InRange := by
    norm_num [InRange, channels, terracotta]
  have wide : 5e-7 ≤ terracotta.spread := by norm_num [spread, highest, lowest, terracotta]
  obtain ⟨-, written, returned, -⟩ := lightness_is_lens terracotta 5e-7 positive inRange
  refine ⟨positive, inRange, wide, (returned (.inr wide)).1, fun lightness low high => ?_⟩
  exact (written lightness low high).2.2.1

end Rgba
end Cartograph

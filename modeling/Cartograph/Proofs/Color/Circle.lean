import Mathlib
import Cartograph.Color.Lightness

/-! The circle of hues, in exact arithmetic. At a hue every channel has a share of the way from the
lowest channel to the highest one. Going around the circle the shares change in one channel at a
time, sixth by sixth, and in every sixth one channel has no share and another one all of it. -/

namespace Cartograph
namespace Rgba

/-- How far the channel of a hue is from the lowest to the highest channel. -/
def share (hue : ℚ) : ℚ := channel 0 1 hue

theorem channel_eq (low high hue : ℚ) : channel low high hue = low + (high - low) * share hue := by
  unfold share channel channelOfHue
  split_ifs <;> ring

theorem share_on_circle (hue : ℚ) (nonneg : 0 ≤ hue) (le_one : hue ≤ 1) :
    share hue = channelOfHue 0 1 hue := by
  have raised : raiseHue 1 hue = hue := if_neg (not_lt.mpr nonneg)
  have lowered : lowerHue 1 hue = hue := if_neg (not_lt.mpr le_one)
  rw [share, channel, raised, lowered]

/-- Both ends of the circle have the same share, so a whole turn makes no difference. -/
theorem share_turned (hue : ℚ) (nonneg : 0 ≤ hue) (le_one : hue ≤ 1) :
    share (hue + 1) = share hue ∧ share (hue - 1) = share hue := by
  have at_zero : share 0 = 0 := by
    rw [share_on_circle 0 le_rfl zero_le_one]
    norm_num [channelOfHue]
  have at_one : share 1 = 0 := by
    rw [share_on_circle 1 zero_le_one le_rfl]
    norm_num [channelOfHue]
  constructor
  · rcases nonneg.eq_or_lt with rfl | positive
    · rw [zero_add, at_zero, at_one]
    · have lowered : lowerHue 1 (raiseHue 1 (hue + 1)) = lowerHue 1 (raiseHue 1 hue) := by
        simp only [raiseHue, lowerHue]
        split_ifs <;> linarith
      exact congrArg (channelOfHue 0 1) lowered
  · rcases le_one.eq_or_lt with rfl | less
    · rw [sub_self, at_zero, at_one]
    · have raised : lowerHue 1 (raiseHue 1 (hue - 1)) = lowerHue 1 (raiseHue 1 hue) := by
        simp only [raiseHue, lowerHue]
        split_ifs <;> linarith
      exact congrArg (channelOfHue 0 1) raised

/-- The share of a channel in the sixths of the circle from its own rise on, by how far into the
sixth the hue is. -/
def shareIn : Fin 6 → ℚ → ℚ
  | 0, t => t
  | 1, _ => 1
  | 2, _ => 1
  | 3, t => 1 - t
  | 4, _ => 0
  | 5, _ => 0

def shares (hue : ℚ) : List ℚ := [share (hue + 1 / 3), share hue, share (hue - 1 / 3)]

/-- The shares of all channels: red is two sixths ahead of green, and blue two behind. -/
def sharesIn (number : Fin 6) (t : ℚ) : List ℚ :=
  [shareIn (number + 2) t, shareIn number t, shareIn (number + 4) t]

theorem zero_mem_sharesIn (number : Fin 6) (t : ℚ) : 0 ∈ sharesIn number t := by
  fin_cases number <;> simp [sharesIn, shareIn]

theorem one_mem_sharesIn (number : Fin 6) (t : ℚ) : 1 ∈ sharesIn number t := by
  fin_cases number <;> simp [sharesIn, shareIn]

theorem sixths_ahead (number steps : Fin 6) :
    ((number + steps : Fin 6) : ℚ) = number + steps ∨
      ((number + steps : Fin 6) : ℚ) = number + steps - 6 := by
  have places : ((number + steps : Fin 6) : ℕ) = number + steps ∨
      ((number + steps : Fin 6) : ℕ) + 6 = number + steps := by
    decide +revert
  rw [eq_sub_iff_add_eq]
  exact_mod_cast places

variable (number : Fin 6) (t : ℚ) (nonneg : 0 ≤ t) (le_one : t ≤ 1)

include nonneg le_one

theorem shareIn_range : 0 ≤ shareIn number t ∧ shareIn number t ≤ 1 := by
  unfold shareIn
  split <;> constructor <;> linarith

theorem sharesIn_range (s : ℚ) (member : s ∈ sharesIn number t) : 0 ≤ s ∧ s ≤ 1 := by
  simp only [sharesIn, List.mem_cons, List.not_mem_nil, or_false] at member
  rcases member with rfl | rfl | rfl <;> exact shareIn_range _ t nonneg le_one

theorem place_range : 0 ≤ ((number : ℚ) + t) / 6 ∧ ((number : ℚ) + t) / 6 ≤ 1 := by
  have last : (number : ℚ) ≤ 5 := by exact_mod_cast Nat.le_of_lt_succ number.isLt
  have first : (0 : ℚ) ≤ number := Nat.cast_nonneg _
  constructor <;> linarith

theorem share_eq_shareIn (hue : ℚ) (place : hue = (number + t) / 6 ∨
    hue = (number + t) / 6 + 1 ∨ hue = (number + t) / 6 - 1) : share hue = shareIn number t := by
  obtain ⟨low, high⟩ := place_range number t nonneg le_one
  have here : share ((number + t) / 6) = shareIn number t := by
    rw [share_on_circle _ low high, channelOfHue]
    -- At the end of a sixth the next branch is taken already, with the same share.
    fin_cases number <;> simp only [shareIn] <;> norm_num <;> grind
  obtain ⟨later, earlier⟩ := share_turned _ low high
  rcases place with rfl | rfl | rfl
  · exact here
  · exact later.trans here
  · exact earlier.trans here

theorem shares_eq : shares ((number + t) / 6) = sharesIn number t := by
  have two : ((2 : Fin 6) : ℚ) = 2 := rfl
  have four : ((4 : Fin 6) : ℚ) = 4 := rfl
  have red : share ((number + t) / 6 + 1 / 3) = shareIn (number + 2) t := by
    apply share_eq_shareIn _ t nonneg le_one
    rcases sixths_ahead number 2 with within | past
    · left
      linarith
    · right; left
      linarith
  have blue : share ((number + t) / 6 - 1 / 3) = shareIn (number + 4) t := by
    apply share_eq_shareIn _ t nonneg le_one
    rcases sixths_ahead number 4 with within | past
    · right; right
      linarith
    · left
      linarith
  rw [shares, sharesIn, red, share_eq_shareIn number t nonneg le_one _ (.inl rfl), blue]

omit nonneg le_one

theorem wrapHue_on_circle (hue : ℚ) (nonneg : 0 ≤ hue) (le_one : hue ≤ 1) : wrapHue hue = hue := by
  rw [wrapHue, if_neg (not_lt.mpr nonneg), if_neg (not_lt.mpr le_one)]

theorem wrapHue_below (hue : ℚ) (negative : hue < 0) : wrapHue hue = hue + 1 := by
  rw [wrapHue, if_pos negative, if_neg (by linarith)]

theorem wrapHue_place (hue : ℚ) (place : hue = (number + t) / 6) (nonneg : 0 ≤ t) (le_one : t ≤ 1) :
    wrapHue hue = (number + t) / 6 := by
  obtain ⟨first, last⟩ := place_range number t nonneg le_one
  rw [place, wrapHue_on_circle _ first last]

section Places

variable (x y : ℚ) (x_range : 0 ≤ x ∧ x ≤ 1) (y_range : 0 ≤ y ∧ y ≤ 1) (low : x = 0 ∨ y = 0)

include x_range y_range low

theorem exists_place_red : ∃ (number : Fin 6) (t : ℚ), 0 ≤ t ∧ t ≤ 1 ∧
    wrapHue ((x - y) / 6) = (number + t) / 6 ∧ [1, x, y] = sharesIn number t := by
  rcases y_range.1.eq_or_lt with rfl | positive
  · refine ⟨0, x, x_range.1, x_range.2, ?_, by simp [sharesIn, shareIn]⟩
    exact wrapHue_place 0 x _ (by simp) x_range.1 x_range.2
  · -- The hue is just below the whole turn.
    obtain rfl : x = 0 := low.resolve_right positive.ne'
    refine ⟨5, 1 - y, by linarith, by linarith, ?_, by simp [sharesIn, shareIn]⟩
    rw [wrapHue_below _ (by linarith)]
    norm_num
    ring

theorem exists_place_green : ∃ (number : Fin 6) (t : ℚ), 0 ≤ t ∧ t ≤ 1 ∧
    wrapHue ((2 + (y - x)) / 6) = (number + t) / 6 ∧ [x, 1, y] = sharesIn number t := by
  rcases low with rfl | rfl
  · refine ⟨2, y, y_range.1, y_range.2, ?_, by simp [sharesIn, shareIn]⟩
    exact wrapHue_place 2 y _ (by norm_num) y_range.1 y_range.2
  · refine ⟨1, 1 - x, by linarith, by linarith, ?_, by simp [sharesIn, shareIn]⟩
    exact wrapHue_place 1 (1 - x) _ (by norm_num; ring) (by linarith) (by linarith)

theorem exists_place_blue : ∃ (number : Fin 6) (t : ℚ), 0 ≤ t ∧ t ≤ 1 ∧
    wrapHue ((4 + (x - y)) / 6) = (number + t) / 6 ∧ [x, y, 1] = sharesIn number t := by
  rcases low with rfl | rfl
  · refine ⟨3, 1 - y, by linarith, by linarith, ?_, by simp [sharesIn, shareIn]⟩
    exact wrapHue_place 3 (1 - y) _ (by norm_num; ring) (by linarith) (by linarith)
  · refine ⟨4, x, x_range.1, x_range.2, ?_, by simp [sharesIn, shareIn]⟩
    exact wrapHue_place 4 x _ (by norm_num) x_range.1 x_range.2

end Places

def hueOfShares (red green blue : ℚ) : ℚ :=
  wrapHue
    (if red = 1 then (green - blue) / 6
    else if green = 1 then (2 + (blue - red)) / 6
    else (4 + (red - green)) / 6)

/-- Where some channel has no share and some channel all of it, the shares lie in a sixth, and the
hue says how far into it. -/
theorem exists_place (red green blue : ℚ) (range : ∀ x ∈ [red, green, blue], 0 ≤ x ∧ x ≤ 1)
    (low : 0 ∈ [red, green, blue]) (high : 1 ∈ [red, green, blue]) :
    ∃ (number : Fin 6) (t : ℚ), 0 ≤ t ∧ t ≤ 1 ∧ hueOfShares red green blue = (number + t) / 6 ∧
      [red, green, blue] = sharesIn number t := by
  simp only [List.mem_cons, List.not_mem_nil, or_false, forall_eq_or_imp, forall_eq]
    at range low high
  obtain ⟨red_range, green_range, blue_range⟩ := range
  unfold hueOfShares
  split_ifs with red_high green_high
  · subst red_high
    exact exists_place_red green blue green_range blue_range (by grind)
  · subst green_high
    exact exists_place_green red blue red_range blue_range (by grind)
  · obtain rfl : blue = 1 := by grind
    exact exists_place_blue red green red_range green_range (by grind)

end Rgba
end Cartograph

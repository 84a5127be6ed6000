import Mathlib
import Cartograph.Color.Lightness

/-! The lowest and the highest channel of a color, and what its hue, saturation and lightness are in
terms of them. -/

namespace Cartograph

namespace Number

theorem least_eq_min (x y : ℚ) : least x y = min x y := by
  rw [least, if_pos (beq_self_eq_true x)]
  split
  · next less => exact (min_eq_right less.le).symm
  · next more => exact (min_eq_left (not_lt.mp more)).symm

theorem greatest_eq_max (x y : ℚ) : greatest x y = max x y := by
  rw [greatest, if_pos (beq_self_eq_true x)]
  split
  · next less => exact (max_eq_right less.le).symm
  · next more => exact (max_eq_left (not_lt.mp more)).symm

end Number

namespace Rgba

def channels {α : Type} (color : Rgba α) : List α := [color.red, color.green, color.blue]

theorem eq_of_channels {α : Type} {color other : Rgba α} (same : color.channels = other.channels)
    (alpha : color.alpha = other.alpha) : color = other := by
  obtain ⟨red, green, blue, a⟩ := color
  obtain ⟨red', green', blue', a'⟩ := other
  simp only [channels, List.cons.injEq, and_true] at same
  obtain ⟨rfl, rfl, rfl⟩ := same
  obtain rfl : a = a' := alpha
  rfl

def lowest (color : Rgba ℚ) : ℚ := min (min color.red color.green) color.blue

def highest (color : Rgba ℚ) : ℚ := max (max color.red color.green) color.blue

def spread (color : Rgba ℚ) : ℚ := color.highest - color.lowest

def InRange (color : Rgba ℚ) : Prop := ∀ channel ∈ color.channels, 0 ≤ channel ∧ channel ≤ 1

variable (color : Rgba ℚ)

theorem red_mem : color.red ∈ color.channels := List.mem_cons_self

theorem green_mem : color.green ∈ color.channels := List.mem_cons_of_mem _ List.mem_cons_self

theorem blue_mem : color.blue ∈ color.channels :=
  List.mem_cons_of_mem _ (List.mem_cons_of_mem _ List.mem_cons_self)

theorem lowest_le (channel : ℚ) (member : channel ∈ color.channels) : color.lowest ≤ channel := by
  simp only [channels, List.mem_cons, List.not_mem_nil, or_false] at member
  rcases member with rfl | rfl | rfl <;> simp [lowest]

theorem le_highest (channel : ℚ) (member : channel ∈ color.channels) :
    channel ≤ color.highest := by
  simp only [channels, List.mem_cons, List.not_mem_nil, or_false] at member
  rcases member with rfl | rfl | rfl <;> simp [highest]

theorem lowest_mem : color.lowest ∈ color.channels := by
  rcases min_choice (min color.red color.green) color.blue with first | last
  · rcases min_choice color.red color.green with red | green
    · rw [lowest, first, red]
      exact color.red_mem
    · rw [lowest, first, green]
      exact color.green_mem
  · rw [lowest, last]
    exact color.blue_mem

theorem highest_mem : color.highest ∈ color.channels := by
  rcases max_choice (max color.red color.green) color.blue with first | last
  · rcases max_choice color.red color.green with red | green
    · rw [highest, first, red]
      exact color.red_mem
    · rw [highest, first, green]
      exact color.green_mem
  · rw [highest, last]
    exact color.blue_mem

theorem lowest_le_highest : color.lowest ≤ color.highest :=
  color.le_highest _ color.lowest_mem

theorem lowest_eq (x : ℚ) (member : x ∈ color.channels) (least : ∀ y ∈ color.channels, x ≤ y) :
    color.lowest = x :=
  le_antisymm (color.lowest_le x member) (least _ color.lowest_mem)

theorem highest_eq (x : ℚ) (member : x ∈ color.channels)
    (greatest : ∀ y ∈ color.channels, y ≤ x) : color.highest = x :=
  le_antisymm (greatest _ color.highest_mem) (color.le_highest x member)

theorem least_channels :
    Number.least (Number.least color.red color.green) color.blue = color.lowest := by
  simp only [Number.least_eq_min, lowest]

theorem greatest_channels :
    Number.greatest (Number.greatest color.red color.green) color.blue = color.highest := by
  simp only [Number.greatest_eq_max, highest]

theorem highest_sub_lowest : color.highest - color.lowest = color.spread := rfl

variable (grey : ℚ)

theorem hsl_eq : color.hsl grey =
    if color.spread < grey then ⟨0, 0, (color.lowest + color.highest) / 2⟩
    else
      ⟨wrapHue
        (if color.red == color.highest then
          ((color.highest - color.blue) / 6 + color.spread / 2) / color.spread -
            ((color.highest - color.green) / 6 + color.spread / 2) / color.spread
        else if color.green == color.highest then
          1 / 3 + ((color.highest - color.red) / 6 + color.spread / 2) / color.spread -
            ((color.highest - color.blue) / 6 + color.spread / 2) / color.spread
        else
          2 / 3 + ((color.highest - color.green) / 6 + color.spread / 2) / color.spread -
            ((color.highest - color.red) / 6 + color.spread / 2) / color.spread),
        if (color.lowest + color.highest) / 2 < 1 / 2 then
          color.spread / (color.lowest + color.highest)
        else color.spread / (2 - (color.lowest + color.highest)),
        (color.lowest + color.highest) / 2⟩ := by
  simp only [hsl, least_channels, greatest_channels, highest_sub_lowest]

theorem lightness_eq : color.lightnessWithin grey = (color.lowest + color.highest) / 2 := by
  rw [lightnessWithin, hsl_eq]
  split <;> rfl

section InRange

variable (inRange : color.InRange)

include inRange

theorem lowest_nonneg : 0 ≤ color.lowest := (inRange _ color.lowest_mem).1

theorem highest_le_one : color.highest ≤ 1 := (inRange _ color.highest_mem).2

theorem lightness_range :
    0 ≤ color.lightnessWithin grey ∧ color.lightnessWithin grey ≤ 1 := by
  have low := color.lowest_nonneg inRange
  have high := color.highest_le_one inRange
  have order := color.lowest_le_highest
  rw [lightness_eq]
  constructor <;> linarith

theorem sum_range (positive : 0 < color.spread) :
    0 < color.lowest + color.highest ∧ 0 < 2 - (color.lowest + color.highest) := by
  have low := color.lowest_nonneg inRange
  have high := color.highest_le_one inRange
  rw [spread] at positive
  constructor <;> linarith

end InRange

end Rgba
end Cartograph

import Mathlib.Data.List.TakeWhile
import Cartograph.Text.Pieces

/-! Texts without the blanks around them. What is cut off is blank, and a text that neither begins
nor ends with a blank is left as it is. -/

namespace Cartograph.Text

theorem trim_parts (text : List Char) :
    ∃ left right, text = left ++ (trim text ++ right) ∧ (∀ c ∈ left, isBlank c = true) ∧
      ∀ c ∈ right, isBlank c = true := by
  refine ⟨text.takeWhile isBlank, ((trimStart text).reverse.takeWhile isBlank).reverse, ?_,
    fun c member => List.mem_takeWhile_imp member,
    fun c member => List.mem_takeWhile_imp (List.mem_reverse.mp member)⟩
  have ending : trim text ++ ((trimStart text).reverse.takeWhile isBlank).reverse =
      trimStart text := by
    rw [trim, trimEnd, ← List.reverse_append, List.takeWhile_append_dropWhile,
      List.reverse_reverse]
  rw [ending, trimStart, List.takeWhile_append_dropWhile]

theorem trim_append (left text : List Char) (blank : ∀ c ∈ left, isBlank c = true) :
    trim (left ++ text) = trim text := by
  rw [trim, trimStart, List.dropWhile_append_of_pos blank, ← trimStart, trim]

theorem dropWhile_of_none (text : List Char) (none : ∀ c ∈ text, isBlank c = false) :
    text.dropWhile isBlank = text := by
  cases text with
  | nil => rfl
  | cons c rest => exact List.dropWhile_cons_of_neg (by simp [none c List.mem_cons_self])

theorem trim_of_none (text : List Char) (none : ∀ c ∈ text, isBlank c = false) :
    trim text = text := by
  have backward : ∀ c ∈ text.reverse, isBlank c = false :=
    fun c member => none c (List.mem_reverse.mp member)
  rw [trim, trimStart, dropWhile_of_none text none, trimEnd, dropWhile_of_none _ backward,
    List.reverse_reverse]

theorem trim_of_ends (first last : Char) (middle : List Char) (start : isBlank first = false)
    (stop : isBlank last = false) :
    trim (first :: (middle ++ [last])) = first :: (middle ++ [last]) := by
  have kept : trimStart (first :: (middle ++ [last])) = first :: (middle ++ [last]) :=
    List.dropWhile_cons_of_neg (by simp [start])
  have reversed : (first :: (middle ++ [last])).reverse = last :: (first :: middle).reverse := by
    simp
  rw [trim, kept, trimEnd, reversed, List.dropWhile_cons_of_neg (by simp [stop])]
  simp

end Cartograph.Text

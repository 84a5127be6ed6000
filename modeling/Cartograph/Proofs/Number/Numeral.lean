import Mathlib
import Cartograph.Number.Notation
import Cartograph.Number.Numeral
import Cartograph.Proofs.Number.Shortest

/-! Decimals read from their digits. A decimal that is written without an exponent mark is read
as a numeral of the same value, wherever its point stands. -/

namespace Cartograph.Number

namespace Numeral

theorem natural_eq (digits : List Char) : natural digits = Nat.ofDigitChars 10 digits 0 := rfl

theorem natural_toDigits (n : Nat) : natural (Nat.toDigits 10 n) = n :=
  Nat.ofDigitChars_ten_toDigits

theorem natural_zeros_append (count : Nat) (digits : List Char) :
    natural (Notation.zeros count ++ digits) = natural digits := by
  rw [natural_eq, Nat.ofDigitChars_append, Notation.zeros, Nat.ofDigitChars_replicate_zero,
    Nat.mul_zero]
  rfl

theorem natural_append_zeros (digits : List Char) (count : Nat) :
    natural (digits ++ Notation.zeros count) = natural digits * 10 ^ count := by
  rw [natural_eq, Nat.ofDigitChars_append, Notation.zeros, Nat.ofDigitChars_replicate_zero,
    Nat.mul_comm]
  rfl

def IsDigits (text : List Char) : Prop := ∀ c ∈ text, c.isDigit = true

theorem isDigits_toDigits (n : Nat) : IsDigits (Nat.toDigits 10 n) := fun _ member =>
  Nat.isDigit_of_mem_toDigits (by decide) (by decide) member

theorem isDigits_zeros (count : Nat) : IsDigits (Notation.zeros count) := by
  intro c member
  rw [List.eq_of_mem_replicate member]
  rfl

theorem isDigits_append (first second : List Char) (digits : IsDigits first)
    (more : IsDigits second) : IsDigits (first ++ second) := by
  intro c member
  rcases List.mem_append.mp member with left | right
  · exact digits c left
  · exact more c right

theorem takeWhile_digits (digits : List Char) (isDigits : IsDigits digits) :
    digits.takeWhile Char.isDigit = digits := by
  rw [← List.append_nil digits, List.takeWhile_append_of_pos isDigits, List.takeWhile_nil]

theorem dropWhile_digits (digits : List Char) (isDigits : IsDigits digits) :
    digits.dropWhile Char.isDigit = [] := by
  rw [← List.append_nil digits, List.dropWhile_append_of_pos isDigits, List.dropWhile_nil]

theorem magnitude_whole (negative : Bool) (digits : List Char) (isDigits : IsDigits digits)
    (nonempty : digits ≠ []) :
    magnitude? negative digits = some (.finite negative (natural digits) 0) := by
  rw [magnitude?, takeWhile_digits digits isDigits, dropWhile_digits digits isDigits]
  simp only [List.append_nil]
  rw [if_neg (fun empty => nonempty empty.1)]
  rfl

theorem magnitude_point (negative : Bool) (whole fraction : List Char)
    (whole_digits : IsDigits whole) (fraction_digits : IsDigits fraction) (nonempty : whole ≠ []) :
    magnitude? negative (whole ++ '.' :: fraction) =
      some (.finite negative (natural (whole ++ fraction)) (-(fraction.length : Int))) := by
  have whole_eq : (whole ++ '.' :: fraction).takeWhile Char.isDigit = whole := by
    rw [List.takeWhile_append_of_pos whole_digits, List.takeWhile_cons_of_neg (by decide),
      List.append_nil]
  have rest_eq : (whole ++ '.' :: fraction).dropWhile Char.isDigit = '.' :: fraction := by
    rw [List.dropWhile_append_of_pos whole_digits, List.dropWhile_cons_of_neg (by decide)]
  rw [magnitude?, whole_eq, rest_eq]
  simp only [takeWhile_digits fraction fraction_digits, dropWhile_digits fraction fraction_digits]
  rw [if_neg (fun empty => nonempty empty.1)]
  simp [exponent?]

theorem magnitude_placePoint (negative : Bool) (digits : List Char) (exponent : Int)
    (isDigits : IsDigits digits) (nonempty : digits ≠ []) :
    ∃ coefficient place,
      magnitude? negative (Notation.placePoint false digits exponent) =
          some (.finite negative coefficient place) ∧
        (coefficient : ℚ) * 10 ^ place = natural digits * 10 ^ exponent := by
  unfold Notation.placePoint
  split
  · next whole =>
    obtain ⟨places, rfl⟩ := Int.eq_ofNat_of_zero_le whole
    simp only [Int.toNat_natCast, Bool.false_eq_true, ↓reduceIte, List.append_nil]
    refine ⟨_, _, magnitude_whole negative _ (isDigits_append _ _ isDigits (isDigits_zeros _))
      (List.append_ne_nil_of_left_ne_nil nonempty _), ?_⟩
    rw [natural_append_zeros, zpow_zero, mul_one, zpow_natCast]
    push_cast
    rfl
  · next fraction =>
    obtain ⟨places, rfl⟩ : ∃ places : Nat, exponent = -(places : Int) :=
      ⟨(-exponent).toNat, by omega⟩
    simp only [neg_neg, Int.toNat_natCast]
    split
    · next inside =>
      have take_digits : IsDigits (digits.take (digits.length - places)) :=
        fun c member => isDigits c (List.mem_of_mem_take member)
      have drop_digits : IsDigits (digits.drop (digits.length - places)) :=
        fun c member => isDigits c (List.mem_of_mem_drop member)
      refine ⟨_, _, magnitude_point negative _ _ take_digits drop_digits ?_, ?_⟩
      · rw [Ne, List.take_eq_nil_iff]
        rintro (none | empty)
        · omega
        · exact nonempty empty
      · rw [List.take_append_drop, List.length_drop, Nat.sub_sub_self inside.le]
    · next before =>
      refine ⟨_, _, magnitude_point negative ['0'] _ (isDigits_zeros 1)
        (isDigits_append _ _ (isDigits_zeros _) isDigits) (List.cons_ne_nil _ _), ?_⟩
      have value : natural (['0'] ++ (Notation.zeros (places - digits.length) ++ digits)) =
          natural digits := by
        change natural (Notation.zeros 1 ++ _) = _
        rw [natural_zeros_append, natural_zeros_append]
      have length_eq : (Notation.zeros (places - digits.length) ++ digits).length = places := by
        rw [List.length_append, Notation.zeros, List.length_replicate]
        omega
      rw [value, length_eq]

theorem placePoint_chars (digits : List Char) (exponent : Int) (isDigits : IsDigits digits) :
    ∀ c ∈ Notation.placePoint false digits exponent, c.isDigit = true ∨ c = '.' := by
  intro c member
  have zero_digit (count : Nat) (found : c ∈ Notation.zeros count) := isDigits_zeros count c found
  have zero : c = '0' → c.isDigit = true := by
    rintro rfl
    rfl
  unfold Notation.placePoint at member
  grind [List.mem_of_mem_take, List.mem_of_mem_drop, IsDigits]

theorem placePoint_parts (digits : List Char) (exponent : Int) (isDigits : IsDigits digits)
    (nonempty : digits ≠ []) :
    ∃ first more, IsDigits (first :: more) ∧
      (Notation.placePoint false digits exponent = first :: more ∨
        ∃ fraction, IsDigits fraction ∧
          Notation.placePoint false digits exponent = first :: (more ++ '.' :: fraction)) := by
  unfold Notation.placePoint
  split
  · obtain ⟨first, others, rfl⟩ := List.exists_cons_of_ne_nil nonempty
    simp only [Bool.false_eq_true, ↓reduceIte, List.append_nil]
    exact ⟨first, _, isDigits_append _ _ isDigits (isDigits_zeros _), .inl rfl⟩
  · simp only
    split
    · next inside =>
      have taken : digits.take (digits.length - (-exponent).toNat) ≠ [] := by
        rw [Ne, List.take_eq_nil_iff]
        rintro (none | empty)
        · omega
        · exact nonempty empty
      obtain ⟨first, more, whole⟩ := List.exists_cons_of_ne_nil taken
      rw [whole]
      refine ⟨first, more, ?_, .inr ⟨_, fun c member => isDigits c (List.mem_of_mem_drop member),
        rfl⟩⟩
      rw [← whole]
      exact fun c member => isDigits c (List.mem_of_mem_take member)
    · exact ⟨'0', [], isDigits_zeros 1,
        .inr ⟨_, isDigits_append _ _ (isDigits_zeros _) isDigits, rfl⟩⟩

theorem placePoint_head (digits : List Char) (exponent : Int) (isDigits : IsDigits digits)
    (nonempty : digits ≠ []) :
    ∃ c rest, Notation.placePoint false digits exponent = c :: rest ∧ c.isDigit = true := by
  obtain ⟨first, others, rfl⟩ := List.exists_cons_of_ne_nil nonempty
  have digit := isDigits first List.mem_cons_self
  unfold Notation.placePoint
  split
  · exact ⟨first, _, rfl, digit⟩
  · simp only
    split
    · next inside =>
      obtain ⟨kept, count⟩ : ∃ kept, (first :: others).length - (-exponent).toNat = kept + 1 :=
        ⟨(first :: others).length - (-exponent).toNat - 1, by omega⟩
      rw [count, List.take_succ_cons, List.cons_append]
      exact ⟨first, _, rfl, digit⟩
    · exact ⟨'0', _, rfl, rfl⟩

theorem code_of_isDigit (c : Char) (digit : c.isDigit = true) : 48 ≤ c.toNat ∧ c.toNat ≤ 57 := by
  simpa [Char.isDigit, UInt32.le_iff_toNat_le] using digit

theorem word_digit (negative : Bool) (c : Char) (rest : List Char) (digit : c.isDigit = true) :
    word? negative (c :: rest) = none := by
  have code := code_of_isDigit c digit
  have not_upper : ¬ c.isUpper := by
    simp only [Char.isUpper, UInt32.le_iff_toNat_le, decide_eq_true_eq]
    change ¬ (65 ≤ c.toNat ∧ c.toNat ≤ 90)
    omega
  have other (first : Char) (word : String) (letter : 57 < first.toNat)
      (head : word.toList.head? = some first) :
      String.ofList ((c :: rest).map Char.toLower) ≠ word := by
    rintro rfl
    rw [String.toList_ofList, List.map_cons, Char.toLower_eq_of_not_isUpper not_upper,
      List.head?_cons] at head
    obtain rfl := Option.some.inj head
    omega
  unfold word?
  split
  · next found => exact absurd found (other 'n' "nan" (by decide) (by decide))
  · next found => exact absurd found (other 'i' "inf" (by decide) (by decide))
  · next found => exact absurd found (other 'i' "infinity" (by decide) (by decide))
  · rfl

theorem read_digit (negative : Bool) (c : Char) (rest : List Char) (digit : c.isDigit = true) :
    read? ((if negative then ['-'] else []) ++ c :: rest) = magnitude? negative (c :: rest) := by
  have split : splitSign ((if negative then ['-'] else []) ++ c :: rest) =
      (negative, c :: rest) := by
    cases negative with
    | true => rfl
    | false =>
      simp only [Bool.false_eq_true, ↓reduceIte, List.nil_append]
      unfold splitSign
      split
      · next found =>
        rw [(List.cons.inj found).1] at digit
        cases digit
      · next found =>
        rw [(List.cons.inj found).1] at digit
        cases digit
      · rfl
  rw [read?, split]
  simp only [word_digit negative c rest digit]
  rfl

end Numeral

end Cartograph.Number

import Mathlib
import Cartograph.Proofs.Number.Numeral
import Cartograph.Proofs.Number.Scientific
import Cartograph.Proofs.Text.Words

/-! Numbers read back from their text. Every double is read from what is written for it, with
its sign also for a zero, and the infinities and what is no number have words of their own. -/

namespace Cartograph.Number

theorem text_toList (x : Float) :
    (text x).toList = Notation.plain.writeBinary .double (ofDouble x) :=
  String.toList_ofList

def written (mantissa : Nat) (exponent : Int) : List Char :=
  Notation.placePoint false (Nat.toDigits 10 (shortest .double .up mantissa exponent).digits)
    (shortest .double .up mantissa exponent).exponent

theorem writeBinary_finite (negative : Bool) (mantissa : Nat) (exponent : Int) :
    Notation.plain.writeBinary .double (.finite negative mantissa exponent) =
      (if negative then ['-'] else []) ++ written mantissa exponent := rfl

theorem read_written (negative : Bool) (mantissa : Nat) (exponent : Int) :
    ∃ coefficient place,
      Numeral.read? ((if negative then ['-'] else []) ++ written mantissa exponent) =
          some (.finite negative coefficient place) ∧
        (coefficient : ℚ) * 10 ^ place = (shortest .double .up mantissa exponent).value := by
  have digits := Numeral.isDigits_toDigits (shortest .double .up mantissa exponent).digits
  have nonempty : Nat.toDigits 10 (shortest .double .up mantissa exponent).digits ≠ [] :=
    Nat.toDigits_ne_nil
  obtain ⟨c, rest, head, digit⟩ := Numeral.placePoint_head _
    (shortest .double .up mantissa exponent).exponent digits nonempty
  obtain ⟨coefficient, place, found, value⟩ := Numeral.magnitude_placePoint negative _
    (shortest .double .up mantissa exponent).exponent digits nonempty
  refine ⟨coefficient, place, ?_, ?_⟩
  · rw [written, head, Numeral.read_digit negative c rest digit, ← head, found]
  · rw [value, Numeral.natural_toDigits, Decimal.value]

theorem toFloat_finite (negative : Bool) (coefficient mantissa : Nat) (place exponent : Int)
    (positive : 0 < mantissa) (storable : Storable mantissa exponent)
    (rounds : RoundsTo (coefficient * 10 ^ place) mantissa exponent) :
    (Numeral.finite negative coefficient place).toFloat =
      Float.ofModel (.pack (Binary.finite negative mantissa exponent).unpacked) := by
  rw [Numeral.toFloat, ofScientific_of_roundsTo coefficient mantissa place exponent positive
    storable rounds, unpacked_finite negative mantissa exponent positive]
  cases negative with
  | false => rfl
  | true => exact neg_pack .positive mantissa exponent positive storable

theorem read_zero (negative : Bool) (exponent : Int) :
    read? ((if negative then ['-'] else []) ++ written 0 exponent) =
      some (Float.ofModel (.pack (Binary.finite negative 0 exponent).unpacked)) := by
  have digits : written 0 exponent = ['0'] := by
    rw [written, shortest, if_pos rfl]
    decide
  rw [digits, unpacked_zero]
  cases negative <;> decide +kernel

theorem read_text (x : Float) : read? (text x).toList = some x := by
  have packed := eq_pack x
  rw [text_toList]
  cases parts : ofDouble x with
  | notANumber =>
    rw [parts] at packed
    rw [packed]
    decide +kernel
  | infinite negative =>
    rw [parts] at packed
    rw [packed]
    cases negative <;> decide +kernel
  | finite negative mantissa exponent =>
    rw [parts] at packed
    rw [writeBinary_finite]
    rcases Nat.eq_zero_or_pos mantissa with rfl | positive
    · rw [read_zero, ← packed]
    · have storable := storable_of_finite x negative mantissa exponent parts
      have rounds := shortest_roundsTo .up mantissa exponent positive storable
      obtain ⟨coefficient, place, found, value⟩ := read_written negative mantissa exponent
      rw [← value] at rounds
      rw [read?, found, Option.map_some, toFloat_finite negative coefficient mantissa place exponent
        positive storable rounds, ← packed]

theorem text_finite_chars (x : Float) (negative : Bool) (mantissa : Nat) (exponent : Int)
    (parts : ofDouble x = .finite negative mantissa exponent) :
    ∀ c ∈ (text x).toList, c.isDigit = true ∨ c = '.' ∨ c = '-' := by
  intro c member
  rw [text_toList, parts, writeBinary_finite] at member
  rcases List.mem_append.mp member with mark | digit
  · cases negative with
    | false => cases mark
    | true => exact .inr (.inr (List.mem_singleton.mp mark))
  · have digits := Numeral.isDigits_toDigits (shortest .double .up mantissa exponent).digits
    exact (Numeral.placePoint_chars _ _ digits c digit).imp_right .inl

theorem text_finite_head (x : Float) (negative : Bool) (mantissa : Nat) (exponent : Int)
    (parts : ofDouble x = .finite negative mantissa exponent) :
    ∃ c rest, (text x).toList = c :: rest ∧ (c.isDigit = true ∨ c = '-') := by
  rw [text_toList, parts, writeBinary_finite]
  cases negative with
  | true => exact ⟨'-', _, rfl, .inr rfl⟩
  | false =>
    obtain ⟨c, rest, head, digit⟩ := Numeral.placePoint_head _
      (shortest .double .up mantissa exponent).exponent
      (Numeral.isDigits_toDigits (shortest .double .up mantissa exponent).digits)
      Nat.toDigits_ne_nil
    exact ⟨c, rest, head, .inl digit⟩

theorem isBlank_of_isDigit (c : Char) (digit : c.isDigit = true) : Text.isBlank c = false := by
  have code := Numeral.code_of_isDigit c digit
  simp [Text.isBlank, Text.blankRanges]
  omega

theorem isWord_text (x : Float) : Text.IsWord (text x).toList ∧ ',' ∉ (text x).toList := by
  cases parts : ofDouble x with
  | notANumber =>
    rw [text_toList, parts]
    exact ⟨⟨by decide, by decide⟩, by decide⟩
  | infinite negative =>
    rw [text_toList, parts]
    cases negative
    · exact ⟨⟨by decide, by decide⟩, by decide⟩
    · exact ⟨⟨by decide, by decide⟩, by decide⟩
  | finite negative mantissa exponent =>
    have chars := text_finite_chars x negative mantissa exponent parts
    obtain ⟨first, rest, head, -⟩ := text_finite_head x negative mantissa exponent parts
    refine ⟨⟨?_, ?_⟩, ?_⟩
    · rw [head]
      exact List.cons_ne_nil _ _
    · rw [List.any_eq_false]
      intro c member
      rcases chars c member with digit | rfl | rfl
      · rw [isBlank_of_isDigit c digit]
        exact Bool.false_ne_true
      · decide
      · decide
    · intro member
      rcases chars ',' member with digit | other | other
      · cases digit
      · cases other
      · cases other

end Cartograph.Number

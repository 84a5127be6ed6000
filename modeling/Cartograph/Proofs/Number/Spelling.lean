import Mathlib
import Cartograph.Proofs.Number.Numeral

/-! How numerals are spelled: a sign, then a word or a body of digits with at most an exponent
behind it. So a minus sign inside of a numeral belongs to its exponent, and what stands before
that sign is no numeral itself. -/

namespace Cartograph.Number

/-- Only these stand in numerals. -/
def IsNumeric (c : Char) : Prop :=
  c.isDigit = true ∨ c.isAlpha = true ∨ c = '.' ∨ c = '+' ∨ c = '-'

instance (c : Char) : Decidable (IsNumeric c) := inferInstanceAs (Decidable (_ ∨ _))

namespace Numeral

structure IsBody (text : List Char) : Prop where
  chars : ∀ c ∈ text, c.isDigit = true ∨ c = '.'
  digit : ∃ c ∈ text, c.isDigit = true

def IsMark (c : Char) : Prop := c = 'e' ∨ c = 'E'

inductive IsSign : List Char → Prop
  | absent : IsSign []
  | plus : IsSign ['+']
  | minus : IsSign ['-']

inductive IsExponent : List Char → Prop
  | absent : IsExponent []
  | marked {mark : Char} {side digits : List Char} (marks : IsMark mark) (signs : IsSign side)
      (nonempty : digits ≠ []) (isDigits : IsDigits digits) : IsExponent (mark :: (side ++ digits))

theorem splitSign_parts (text : List Char) :
    ∃ side, IsSign side ∧ text = side ++ (splitSign text).2 := by
  unfold splitSign
  split
  · exact ⟨_, .minus, rfl⟩
  · exact ⟨_, .plus, rfl⟩
  · exact ⟨_, .absent, rfl⟩

theorem isExponent_of_read (text : List Char) (exponent : Int)
    (read : exponent? text = some exponent) : IsExponent text := by
  cases text with
  | nil => exact .absent
  | cons mark rest =>
    by_cases marks : mark = 'e' ∨ mark = 'E'
    · simp only [exponent?, if_pos marks] at read
      split at read
      · next digits =>
        obtain ⟨side, signs, parts⟩ := splitSign_parts rest
        rw [parts]
        exact .marked marks signs digits.1 (List.all_eq_true.mp digits.2)
      · cases read
    · simp only [exponent?, if_neg marks] at read
      cases read

theorem isDigits_takeWhile (text : List Char) : IsDigits (text.takeWhile Char.isDigit) :=
  fun _ member => List.mem_takeWhile_imp member

theorem isBody_of_digits (whole : List Char) (isDigits : IsDigits whole) (nonempty : whole ≠ []) :
    IsBody whole := by
  obtain ⟨first, rest, rfl⟩ := List.exists_cons_of_ne_nil nonempty
  exact ⟨fun c member => .inl (isDigits c member), first, List.mem_cons_self,
    isDigits first List.mem_cons_self⟩

theorem isBody_of_point (whole fraction : List Char) (whole_digits : IsDigits whole)
    (fraction_digits : IsDigits fraction) (nonempty : ¬ (whole = [] ∧ fraction = [])) :
    IsBody (whole ++ '.' :: fraction) := by
  constructor
  · intro c member
    rcases List.mem_append.mp member with left | right
    · exact .inl (whole_digits c left)
    · rcases List.mem_cons.mp right with point | digit
      · exact .inr point
      · exact .inl (fraction_digits c digit)
  · by_cases empty : whole = []
    · obtain ⟨digit, rest, rfl⟩ := List.exists_cons_of_ne_nil fun none => nonempty ⟨empty, none⟩
      exact ⟨digit, by simp, fraction_digits digit List.mem_cons_self⟩
    · obtain ⟨digit, rest, rfl⟩ := List.exists_cons_of_ne_nil empty
      exact ⟨digit, by simp, whole_digits digit List.mem_cons_self⟩

theorem parts_of_magnitude (negative : Bool) (text : List Char) (numeral : Numeral)
    (read : magnitude? negative text = some numeral) :
    ∃ body tail, text = body ++ tail ∧ IsBody body ∧ IsExponent tail := by
  have whole_digits := isDigits_takeWhile text
  have whole_rest := List.takeWhile_append_dropWhile (p := Char.isDigit) (l := text)
  unfold magnitude? at read
  split at read
  next fraction rest parts =>
    simp only at read
    split at read
    · cases read
    · next nonempty =>
      obtain ⟨exponent, found, -⟩ := Option.map_eq_some_iff.mp read
      have tail := isExponent_of_read rest exponent found
      split at parts
      · next others point =>
        obtain ⟨rfl, rfl⟩ := Prod.mk.inj parts
        have others_parts := List.takeWhile_append_dropWhile (p := Char.isDigit) (l := others)
        refine ⟨_, _, ?_, isBody_of_point _ _ whole_digits (isDigits_takeWhile others) nonempty,
          tail⟩
        rw [List.append_assoc, List.cons_append, others_parts, ← point, whole_rest]
      · obtain ⟨rfl, rfl⟩ := Prod.mk.inj parts
        have some_digits : text.takeWhile Char.isDigit ≠ [] := fun none => nonempty ⟨none, rfl⟩
        exact ⟨_, _, whole_rest.symm, isBody_of_digits _ whole_digits some_digits, tail⟩

theorem isAlpha_of_toLower (c : Char) (lower : c.toLower.isAlpha = true) : c.isAlpha = true := by
  by_cases upper : c.isUpper = true
  · simp [Char.isAlpha, upper]
  · rwa [Char.toLower_eq_of_not_isUpper upper] at lower

theorem isAlpha_of_word (negative : Bool) (text : List Char) (numeral : Numeral)
    (read : word? negative text = some numeral) : ∀ c ∈ text, c.isAlpha = true := by
  intro c member
  have lowered : c.toLower ∈ (String.ofList (text.map Char.toLower)).toList := by
    rw [String.toList_ofList]
    exact List.mem_map_of_mem member
  have letter (word : String) (same : String.ofList (text.map Char.toLower) = word)
      (letters : ∀ letter ∈ word.toList, letter.isAlpha = true) : c.isAlpha = true :=
    isAlpha_of_toLower c (letters _ (same ▸ lowered))
  unfold word? at read
  split at read
  · next same => exact letter "nan" same (List.all_eq_true.mp rfl)
  · next same => exact letter "inf" same (List.all_eq_true.mp rfl)
  · next same => exact letter "infinity" same (List.all_eq_true.mp rfl)
  · cases read

inductive IsUnsigned : List Char → Prop
  | word {text : List Char} (letters : ∀ c ∈ text, c.isAlpha = true) : IsUnsigned text
  | number {body tail : List Char} (isBody : IsBody body) (isExponent : IsExponent tail) :
      IsUnsigned (body ++ tail)

theorem parts_of_read (text : List Char) (numeral : Numeral) (read : read? text = some numeral) :
    ∃ side rest, text = side ++ rest ∧ IsSign side ∧ IsUnsigned rest := by
  obtain ⟨side, signs, parts⟩ := splitSign_parts text
  refine ⟨side, (splitSign text).2, parts, signs, ?_⟩
  change (word? (splitSign text).1 (splitSign text).2).orElse
    (fun _ => magnitude? (splitSign text).1 (splitSign text).2) = some numeral at read
  rcases (Option.orElse_eq_some _ _ _).mp read with word | ⟨-, magnitude⟩
  · exact .word (isAlpha_of_word _ _ numeral word)
  · obtain ⟨body, tail, same, isBody, isExponent⟩ := parts_of_magnitude _ _ numeral magnitude
    rw [same]
    exact .number isBody isExponent

end Numeral

open Numeral

theorem isNumeric_of_mark (mark : Char) (marks : IsMark mark) : IsNumeric mark := by
  rcases marks with rfl | rfl <;> decide

theorem isNumeric_of_sign (side : List Char) (signs : IsSign side) : ∀ c ∈ side, IsNumeric c := by
  intro c member
  cases signs with
  | absent => cases member
  | plus =>
    obtain rfl := List.mem_singleton.mp member
    decide
  | minus =>
    obtain rfl := List.mem_singleton.mp member
    decide

theorem isNumeric_of_body (body : List Char) (isBody : IsBody body) : ∀ c ∈ body, IsNumeric c := by
  intro c member
  rcases isBody.chars c member with digit | rfl
  · exact .inl digit
  · decide

theorem isNumeric_of_exponent (tail : List Char) (isExponent : IsExponent tail) :
    ∀ c ∈ tail, IsNumeric c := by
  intro c member
  cases isExponent with
  | absent => cases member
  | marked marks signs nonempty isDigits =>
    rcases List.mem_cons.mp member with rfl | later
    · exact isNumeric_of_mark c marks
    · rcases List.mem_append.mp later with sign | digit
      · exact isNumeric_of_sign _ signs c sign
      · exact .inl (isDigits c digit)

theorem isNumeric_of_read (text : List Char) (x : Float) (read : read? text = some x) :
    ∀ c ∈ text, IsNumeric c := by
  obtain ⟨numeral, found, -⟩ := Option.map_eq_some_iff.mp read
  obtain ⟨side, rest, rfl, signs, unsigned⟩ := parts_of_read text numeral found
  intro c member
  rcases List.mem_append.mp member with sign | later
  · exact isNumeric_of_sign side signs c sign
  · cases unsigned with
    | word letters => exact .inr (.inl (letters c later))
    | number isBody isExponent =>
      rcases List.mem_append.mp later with front | back
      · exact isNumeric_of_body _ isBody c front
      · exact isNumeric_of_exponent _ isExponent c back

theorem comma_not_mem_of_read (text : List Char) (x : Float) (read : read? text = some x) :
    ',' ∉ text :=
  fun member => absurd (isNumeric_of_read text x read ',' member) (by decide)

theorem digit_or_point_of_last (body tail : List Char) (last : Char) (isBody : IsBody body)
    (isExponent : IsExponent tail) (ending : (body ++ tail).getLast? = some last) :
    last.isDigit = true ∨ last = '.' := by
  cases isExponent with
  | absent =>
    rw [List.append_nil] at ending
    exact isBody.chars last (List.mem_of_getLast? ending)
  | @marked mark side digits marks signs nonempty isDigits =>
    have behind : body ++ mark :: (side ++ digits) = (body ++ mark :: side) ++ digits := by simp
    obtain ⟨digit, found⟩ : ∃ digit, digits.getLast? = some digit :=
      ⟨_, List.getLast?_eq_some_getLast nonempty⟩
    rw [behind, List.getLast?_append, found] at ending
    obtain rfl := Option.some.inj ending
    exact .inl (isDigits digit (List.mem_of_getLast? found))

theorem code_of_isAlpha (c : Char) (letter : c.isAlpha = true) :
    (65 ≤ c.toNat ∧ c.toNat ≤ 90) ∨ (97 ≤ c.toNat ∧ c.toNat ≤ 122) := by
  simpa [Char.isAlpha, Char.isUpper, Char.isLower, UInt32.le_iff_toNat_le] using letter

theorem isDigit_of_sign (side : List Char) (signs : IsSign side) :
    ∀ c ∈ side, c.isDigit = false := by
  intro c member
  cases signs with
  | absent => cases member
  | plus => exact List.mem_singleton.mp member ▸ rfl
  | minus => exact List.mem_singleton.mp member ▸ rfl

theorem read_of_mark (side body : List Char) (mark : Char) (isBody : IsBody body)
    (marks : IsMark mark) : read? (side ++ (body ++ [mark])) = none := by
  cases read : read? (side ++ (body ++ [mark])) with
  | none => rfl
  | some x =>
    exfalso
    obtain ⟨numeral, found, -⟩ := Option.map_eq_some_iff.mp read
    obtain ⟨front, rest, parts, signs, unsigned⟩ := parts_of_read _ numeral found
    obtain ⟨digit, member, isDigit⟩ := isBody.digit
    have inside : digit ∈ rest := by
      have somewhere : digit ∈ front ++ rest := by
        rw [← parts]
        simp [member]
      refine (List.mem_append.mp somewhere).resolve_left fun sign => ?_
      rw [isDigit_of_sign front signs digit sign] at isDigit
      cases isDigit
    cases unsigned with
    | word letters =>
      have letter := code_of_isAlpha digit (letters digit inside)
      have code := code_of_isDigit digit isDigit
      omega
    | @number body' tail isBody' isExponent =>
      obtain ⟨last, ending⟩ : ∃ last, (body' ++ tail).getLast? = some last :=
        ⟨_, List.getLast?_eq_some_getLast (List.ne_nil_of_mem inside)⟩
      have same : (side ++ (body ++ [mark])).getLast? = some last := by
        rw [parts, List.getLast?_append, ending]
        rfl
      rw [← List.append_assoc, List.getLast?_concat] at same
      obtain rfl := Option.some.inj same
      have unsigned := digit_or_point_of_last body' tail mark isBody' isExponent ending
      rcases marks with rfl | rfl <;> revert unsigned <;> decide

/-- A minus sign that does not come first is the sign of the exponent. -/
theorem minus_in_exponent (text : List Char) (x : Float) (read : read? text = some x)
    (inner : text.head? ≠ some '-') (member : '-' ∈ text) :
    ∃ side body mark digits, text = (side ++ (body ++ [mark])) ++ '-' :: digits ∧ IsBody body ∧
      IsMark mark ∧ '-' ∉ side ++ (body ++ [mark]) := by
  obtain ⟨numeral, found, -⟩ := Option.map_eq_some_iff.mp read
  obtain ⟨side, rest, rfl, signs, unsigned⟩ := parts_of_read text numeral found
  have outside : '-' ∉ side := by
    cases signs with
    | absent => exact List.not_mem_nil
    | plus => decide
    | minus => exact absurd rfl inner
  have behind : '-' ∈ rest := (List.mem_append.mp member).resolve_left outside
  cases unsigned with
  | word letters => exact absurd (letters '-' behind) (by decide)
  | @number body tail isBody isExponent =>
    have not_body : '-' ∉ body := fun found => absurd (isBody.chars '-' found) (by decide)
    have in_tail : '-' ∈ tail := (List.mem_append.mp behind).resolve_left not_body
    cases isExponent with
    | absent => cases in_tail
    | @marked mark sign digits marks signs' nonempty isDigits =>
      have not_mark : '-' ≠ mark := by
        rintro rfl
        rcases marks with same | same <;> cases same
      have not_digits : '-' ∉ digits := fun found => absurd (isDigits '-' found) (by decide)
      have in_sign : '-' ∈ sign := by
        have later := (List.mem_cons.mp in_tail).resolve_left not_mark
        exact (List.mem_append.mp later).resolve_right not_digits
      cases signs' with
      | absent => cases in_sign
      | plus => exact absurd in_sign (by decide)
      | minus =>
        refine ⟨side, body, mark, digits, by simp, isBody, marks, ?_⟩
        simp [outside, not_body, not_mark]

end Cartograph.Number

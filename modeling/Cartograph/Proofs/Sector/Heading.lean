import Cartograph.Proofs.Number.Spelling
import Cartograph.Proofs.Text.Trim
import Cartograph.Proofs.Text.Words
import Cartograph.Sector

/-! Headings where sectors are read. A text is taken for a range as soon as it has a minus sign
behind its first character, and what stands before that sign in a heading is never a heading. So
just the headings with such a sign, behind a blank or in an exponent, are lost. -/

namespace Cartograph

open Number Number.Numeral

theorem isBlank_of_isNumeric (c : Char) (numeric : IsNumeric c) : Text.isBlank c = false := by
  have visible (low : 32 < c.toNat) (high : c.toNat < 127) : Text.isBlank c = false := by
    simp [Text.isBlank, Text.blankRanges]
    omega
  rcases numeric with digit | letter | rfl | rfl | rfl
  · have code := code_of_isDigit c digit
    exact visible (by omega) (by omega)
  · have code := code_of_isAlpha c letter
    exact visible (by omega) (by omega)
  all_goals decide

theorem isAlpha_of_toUpper (c : Char) (upper : c.toUpper.isAlpha = true) : c.isAlpha = true := by
  by_cases lower : c.isLower = true
  · simp [Char.isAlpha, lower]
  · rwa [Char.toUpper_eq_of_not_isLower lower] at upper

theorem isAlpha_of_compassPoint (point : String) (listed : point ∈ compassPoints) :
    ∀ c ∈ point.toList, c.isAlpha = true := by
  have letters : (compassPoints.all fun point => point.toList.all Char.isAlpha) = true := rfl
  exact List.all_eq_true.mp (List.all_eq_true.mp letters point listed)

theorem isAlpha_of_compass (text : List Char) (degrees : Float)
    (read : compassDegrees? text = some degrees) : ∀ c ∈ text, c.isAlpha = true := by
  obtain ⟨index, found, -⟩ := Option.map_eq_some_iff.mp read
  obtain ⟨inside, same, -⟩ := List.findIdx?_eq_some_iff_getElem.mp found
  have listed : String.ofList (Text.upper text) ∈ compassPoints :=
    eq_of_beq same ▸ List.getElem_mem inside
  intro c member
  apply isAlpha_of_toUpper
  apply isAlpha_of_compassPoint _ listed
  rw [String.toList_ofList]
  exact List.mem_map_of_mem member

theorem isNumeric_of_heading (text : List Char) (degrees : Float)
    (read : headingDegrees? text = some degrees) : ∀ c ∈ Text.trim text, IsNumeric c := by
  intro c member
  rcases (Option.orElse_eq_some _ _ _).mp read with number | ⟨-, compass⟩
  · exact isNumeric_of_read _ degrees (Option.filter_eq_some_iff.mp number).1 c member
  · exact .inr (.inl (isAlpha_of_compass _ degrees compass c member))

theorem read_of_headingMinus (text : List Char) (degrees : Float)
    (read : headingDegrees? text = some degrees) (minus : '-' ∈ text) :
    Number.read? (Text.trim text) = some degrees ∧ '-' ∈ Text.trim text := by
  obtain ⟨left, right, parts, left_blank, right_blank⟩ := Text.trim_parts text
  have kept : '-' ∈ Text.trim text := by
    rw [parts] at minus
    rcases List.mem_append.mp minus with before | later
    · exact absurd (left_blank '-' before) (by decide)
    · refine (List.mem_append.mp later).resolve_right fun after => ?_
      exact absurd (right_blank '-' after) (by decide)
  refine ⟨?_, kept⟩
  rcases (Option.orElse_eq_some _ _ _).mp read with number | ⟨-, compass⟩
  · exact (Option.filter_eq_some_iff.mp number).1
  · exact absurd (isAlpha_of_compass _ degrees compass '-' kept) (by decide)

namespace Sector

/-- A minus sign stands in the text, and not at its very beginning. -/
def HasInnerMinus (text : List Char) : Prop := text.head? ≠ some '-' ∧ '-' ∈ text

instance (text : List Char) : Decidable (HasInnerMinus text) := inferInstanceAs (Decidable (_ ∧ _))

theorem range_eq_none_iff (text : List Char) : range? text = none ↔ ¬ HasInnerMinus text := by
  unfold range? HasInnerMinus
  split
  · next first => simp [first]
  · next other => simp [other, Text.splitFirst_eq_none_iff]

/-- What stands before the first minus sign that is not at the beginning of a heading is blank, or
lacks the digits of its exponent. -/
theorem heading_before_minus (text before after : List Char) (degrees : Float)
    (read : headingDegrees? text = some degrees)
    (split : Text.splitFirst? '-' text = some (before, after)) :
    headingDegrees? before = none := by
  have minus : '-' ∈ text := by
    rw [((Text.splitFirst_eq_some_iff '-' text before after).mp split).1]
    simp
  obtain ⟨number, trimmed_minus⟩ := read_of_headingMinus text degrees read minus
  obtain ⟨left, right, parts, left_blank, -⟩ := Text.trim_parts text
  have not_left : '-' ∉ left := fun member => absurd (left_blank '-' member) (by decide)
  have before_eq (front rest : List Char) (first : '-' ∉ front)
      (same : Text.trim text = front ++ '-' :: rest) : before = left ++ front := by
    have again := Text.splitFirst_append '-' (left ++ front) (rest ++ right)
      (by simp [not_left, first])
    rw [List.append_assoc, ← List.cons_append, ← List.append_assoc front, ← same, ← parts,
      split] at again
    exact (Prod.mk.inj (Option.some.inj again)).1
  by_cases leads : (Text.trim text).head? = some '-'
  · obtain ⟨rest, same⟩ := List.head?_eq_some_iff.mp leads
    obtain rfl := before_eq [] rest List.not_mem_nil same
    rw [headingDegrees?, Text.trim_append left [] left_blank]
    rfl
  · obtain ⟨side, body, mark, digits, same, isBody, marks, first⟩ :=
      minus_in_exponent _ degrees number leads trimmed_minus
    obtain rfl := before_eq _ digits first same
    have numeric := isNumeric_of_heading text degrees read
    rw [same] at numeric
    have visible : ∀ c ∈ side ++ (body ++ [mark]), Text.isBlank c = false := fun c member =>
      isBlank_of_isNumeric c (numeric c (List.mem_append_left _ member))
    have compass : compassDegrees? (side ++ (body ++ [mark])) = none := by
      obtain ⟨digit, member, isDigit⟩ := isBody.digit
      by_contra found
      obtain ⟨degrees, found⟩ := Option.ne_none_iff_exists'.mp found
      have letter := isAlpha_of_compass _ degrees found digit (by simp [member])
      have letter_code := code_of_isAlpha digit letter
      have digit_code := code_of_isDigit digit isDigit
      omega
    rw [headingDegrees?, Text.trim_append left _ left_blank, Text.trim_of_none _ visible,
      read_of_mark side body mark isBody marks, compass]
    rfl

theorem read_of_heading (text : List Char) (heading : Point Float) (angle : Option Float)
    (read : heading? text = some heading) :
    read? text angle =
      if HasInnerMinus text then none else some (around heading (halfOpening angle)) := by
  obtain ⟨degrees, known, rfl⟩ := Option.map_eq_some_iff.mp read
  by_cases inner : HasInnerMinus text
  · rw [if_pos inner]
    cases cut : range? text with
    | none => exact absurd inner ((range_eq_none_iff text).mp cut)
    | some ends =>
      obtain ⟨before, after⟩ := ends
      have split : Text.splitFirst? '-' text = some (before, after) := by
        rwa [range?, if_neg inner.1] at cut
      have lost := heading_before_minus text before after degrees known split
      simp [read?, cut, heading?, lost]
  · rw [if_neg inner, read?, (range_eq_none_iff text).mpr inner, read]
    rfl

/-- A heading is read as a sector around it just if it has no minus sign behind its first
character, alone and wherever it stands in a list. -/
theorem heading_kept_iff (text : List Char) (heading : Point Float)
    (read : heading? text = some heading) :
    (∀ angle, read? text angle =
      if HasInnerMinus text then none else some (around heading (halfOpening angle))) ∧
    ∀ list before after, Text.pieces (· = ';') list = before ++ text :: after →
      readAll list = before.filterMap (read? · none) ++
        (if HasInnerMinus text then [] else [around heading defaultHalf]) ++
          after.filterMap (read? · none) := by
  have alone (angle : Option Float) := read_of_heading text heading angle read
  refine ⟨alone, fun list before after parts => ?_⟩
  rw [readAll, parts, List.filterMap_append, List.filterMap_cons, alone]
  by_cases inner : HasInnerMinus text
  · simp [inner]
  · simp [inner, halfOpening]

theorem southward_kept :
    heading? "-5".toList = some (headingOfDegrees (-5)) ∧
      read? "-5".toList (some 90) = some (around (headingOfDegrees (-5)) (halfOpening (some 90))) ∧
      Text.pieces (· = ';') "1e-5;-5".toList = ["1e-5".toList] ++ "-5".toList :: [] ∧
      readAll "1e-5;-5".toList = [around (headingOfDegrees (-5)) defaultHalf] := by
  have read : heading? "-5".toList = some (headingOfDegrees (-5)) := rfl
  have parts : Text.pieces (· = ';') "1e-5;-5".toList = ["1e-5".toList] ++ "-5".toList :: [] := rfl
  obtain ⟨alone, listed⟩ := heading_kept_iff "-5".toList _ read
  refine ⟨read, (alone (some 90)).trans rfl, parts, (listed _ _ _ parts).trans rfl⟩

/-- Neither an exponent with a minus sign nor a minus sign behind a blank is kept. -/
theorem small_and_blank_lost :
    heading? "1e-5".toList = some (headingOfDegrees 0.00001) ∧
      heading? " -5".toList = some (headingOfDegrees (-5)) ∧
      (∀ angle, read? "1e-5".toList angle = none ∧ read? " -5".toList angle = none) ∧
      readAll "1e-5; -5".toList = [] := by
  refine ⟨rfl, rfl, fun angle => ⟨rfl, rfl⟩, rfl⟩

end Sector

end Cartograph

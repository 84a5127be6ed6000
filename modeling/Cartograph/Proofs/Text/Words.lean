import Cartograph.Text.Pieces

/-! Words of a text that is put together from words. A blank always ends a word, and a word is
cut nowhere else. -/

namespace Cartograph.Text

theorem pieces_ne_nil (isSeparator : Char → Bool) (text : List Char) :
    pieces isSeparator text ≠ [] := by
  induction text with
  | nil => exact List.cons_ne_nil _ _
  | cons c rest _ =>
    unfold pieces
    split
    · exact List.cons_ne_nil _ _
    · split <;> exact List.cons_ne_nil _ _

theorem pieces_append (isSeparator : Char → Bool) (left right : List Char) (mark : Char)
    (separates : isSeparator mark = true) :
    pieces isSeparator (left ++ mark :: right) =
      pieces isSeparator left ++ pieces isSeparator right := by
  induction left with
  | nil => simp [pieces, separates]
  | cons c rest cut =>
    rw [List.cons_append, pieces, pieces, cut]
    cases first : pieces isSeparator rest with
    | nil => exact absurd first (pieces_ne_nil isSeparator rest)
    | cons piece others =>
      split <;> rfl

theorem pieces_of_none (isSeparator : Char → Bool) (text : List Char)
    (none : ∀ c ∈ text, isSeparator c = false) : pieces isSeparator text = [text] := by
  induction text with
  | nil => rfl
  | cons c rest whole =>
    have tail := whole fun other member => none other (List.mem_cons_of_mem c member)
    rw [pieces, none c List.mem_cons_self, tail]
    rfl

theorem words_append (left right : List Char) :
    words (left ++ ' ' :: right) = words left ++ words right := by
  rw [words, pieces_append isBlank left right ' ' (by decide), List.filter_append]
  rfl

def IsWord (text : List Char) : Prop := text ≠ [] ∧ text.any isBlank = false

theorem words_of_isWord (text : List Char) (word : IsWord text) : words text = [text] := by
  have none : ∀ c ∈ text, isBlank c = false := by simpa using word.2
  rw [words, pieces_of_none isBlank text none, List.filter_cons_of_pos, List.filter_nil]
  simpa using word.1

theorem words_intercalate (texts : List (List Char)) :
    words ([' '].intercalate texts) = texts.flatMap words := by
  induction texts with
  | nil => rfl
  | cons text others rest =>
    cases others with
    | nil => simp [List.intercalate]
    | cons next others =>
      rw [List.flatMap_cons, ← rest, ← words_append]
      simp [List.intercalate, List.intersperse]

theorem splitFirst_append (mark : Char) (before after : List Char) (absent : mark ∉ before) :
    splitFirst? mark (before ++ mark :: after) = some (before, after) := by
  induction before with
  | nil => simp [splitFirst?]
  | cons c rest split =>
    have other : c ≠ mark := fun same => absent (same ▸ List.mem_cons_self)
    rw [List.cons_append, splitFirst?, if_neg other,
      split fun member => absent (List.mem_cons_of_mem c member)]
    rfl

theorem splitFirst_eq_none_iff (mark : Char) (text : List Char) :
    splitFirst? mark text = none ↔ mark ∉ text := by
  induction text with
  | nil => simp [splitFirst?]
  | cons c rest ih =>
    by_cases same : c = mark
    · simp [splitFirst?, same]
    · simp [splitFirst?, same, ih, Ne.symm same]

theorem splitFirst_eq_some_iff (mark : Char) (text before after : List Char) :
    splitFirst? mark text = some (before, after) ↔
      text = before ++ mark :: after ∧ mark ∉ before := by
  constructor
  · intro cut
    induction text generalizing before with
    | nil => cases cut
    | cons c rest ih =>
      unfold splitFirst? at cut
      split at cut
      · next same =>
        cases cut
        exact ⟨by rw [same]; rfl, List.not_mem_nil⟩
      · next other =>
        obtain ⟨⟨front, back⟩, found, same⟩ := Option.map_eq_some_iff.mp cut
        cases same
        obtain ⟨rfl, absent⟩ := ih front found
        refine ⟨rfl, fun member => ?_⟩
        rcases List.mem_cons.mp member with rfl | later
        · exact other rfl
        · exact absent later
  · rintro ⟨rfl, absent⟩
    exact splitFirst_append mark before after absent

end Cartograph.Text

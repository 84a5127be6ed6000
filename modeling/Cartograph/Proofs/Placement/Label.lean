import Mathlib
import Cartograph.Placement.Label

/-! Labels read back. In an escaped text every `&` begins an entity, so the quotes that are put in
for their entities make no new one with what stands around them, and the ampersands that are put in
last are not looked at again: of an escaped text just the text is shown. -/

namespace Cartograph

namespace Text

section Replacement

variable (pattern replacement rest : List Char)

theorem replaceFrom_append (inside : List Char) :
    replaceFrom pattern replacement inside.length (inside ++ rest) =
      replaceAll pattern replacement rest := by
  induction inside with
  | nil => rfl
  | cons c inside ih => exact ih

theorem replaceAll_pattern (first : Char) :
    replaceAll (first :: pattern) replacement (first :: pattern ++ rest) =
      replacement ++ replaceAll (first :: pattern) replacement rest := by
  have begins : (first :: pattern).isPrefixOf (first :: (pattern ++ rest)) = true :=
    List.isPrefixOf_iff_prefix.mpr (List.prefix_append _ rest)
  rw [List.cons_append, replaceAll, replaceFrom, if_pos begins, List.length_cons,
    Nat.add_sub_cancel, replaceFrom_append]

theorem replaceAll_of_no_prefix (c : Char) (none : pattern.isPrefixOf (c :: rest) = false) :
    replaceAll pattern replacement (c :: rest) =
      c :: replaceAll pattern replacement rest := by
  rw [replaceAll, replaceFrom, none]
  rfl

theorem replaceAll_of_ne (first c : Char) (other : first ≠ c) :
    replaceAll (first :: pattern) replacement (c :: rest) =
      c :: replaceAll (first :: pattern) replacement rest := by
  apply replaceAll_of_no_prefix
  rw [List.isPrefixOf_cons_cons, beq_false_of_ne other, Bool.false_and]

theorem replaceAll_of_absent (first : Char) (piece : List Char) (absent : first ∉ piece) :
    replaceAll (first :: pattern) replacement (piece ++ rest) =
      piece ++ replaceAll (first :: pattern) replacement rest := by
  induction piece with
  | nil => rfl
  | cons c piece ih =>
    rw [List.mem_cons, not_or] at absent
    rw [List.cons_append, replaceAll_of_ne _ _ _ _ _ absent.1, ih absent.2, List.cons_append]

/-- A text is replaced piece by piece where no occurrence reaches over the end of a piece. -/
theorem replaceAll_flatMap (written replaced : Char → List Char)
    (pieces : ∀ c rest, replaceAll pattern replacement (written c ++ rest) =
      replaced c ++ replaceAll pattern replacement rest) (text : List Char) :
    replaceAll pattern replacement (text.flatMap written) = text.flatMap replaced := by
  induction text with
  | nil => rfl
  | cons c text ih => rw [List.flatMap_cons, List.flatMap_cons, pieces, ih]

end Replacement

end Text

namespace Label

def entity (c : Char) : List Char :=
  if c = '&' then ['&', 'a', 'm', 'p', ';']
  else if c = '"' then ['&', 'q', 'u', 'o', 't', ';'] else [c]

def escape (text : List Char) : List Char := text.flatMap entity

def unquoted (c : Char) : List Char := if c = '&' then ['&', 'a', 'm', 'p', ';'] else [c]

section Characters

variable (c : Char) (rest : List Char)

theorem replaceAll_quot : Text.replaceAll ['&', 'q', 'u', 'o', 't', ';'] ['"'] (entity c ++ rest) =
    unquoted c ++ Text.replaceAll ['&', 'q', 'u', 'o', 't', ';'] ['"'] rest := by
  by_cases ampersand : c = '&'
  · -- What an ampersand is written as begins no quote, and nothing in it begins one.
    subst ampersand
    have begins := Text.replaceAll_of_no_prefix ['&', 'q', 'u', 'o', 't', ';'] ['"']
      (['a', 'm', 'p', ';'] ++ rest) '&' rfl
    have ends := Text.replaceAll_of_absent ['q', 'u', 'o', 't', ';'] ['"'] rest '&'
      ['a', 'm', 'p', ';'] (by decide)
    exact begins.trans (congrArg ('&' :: ·) ends)
  · rw [entity, if_neg ampersand, unquoted, if_neg ampersand]
    split
    · next quote =>
      rw [quote]
      exact Text.replaceAll_pattern _ _ _ _
    · exact Text.replaceAll_of_absent _ _ _ _ _ fun same =>
        ampersand (List.mem_singleton.mp same).symm

theorem replaceAll_amp : Text.replaceAll ['&', 'a', 'm', 'p', ';'] ['&'] (unquoted c ++ rest) =
    [c] ++ Text.replaceAll ['&', 'a', 'm', 'p', ';'] ['&'] rest := by
  rw [unquoted]
  split
  · next ampersand =>
    rw [ampersand]
    exact Text.replaceAll_pattern _ _ _ _
  · next other =>
    exact Text.replaceAll_of_absent _ _ _ _ _ fun same => other (List.mem_singleton.mp same).symm

end Characters

theorem unescape_escape (text : List Char) : unescape (escape text) = text := by
  change Text.replaceAll ['&', 'a', 'm', 'p', ';'] ['&']
    (Text.replaceAll ['&', 'q', 'u', 'o', 't', ';'] ['"'] (text.flatMap entity)) = text
  rw [Text.replaceAll_flatMap _ _ entity unquoted replaceAll_quot,
    Text.replaceAll_flatMap _ _ unquoted (fun c => [c]) replaceAll_amp]
  exact List.flatMap_singleton' text

theorem length_cut_le (text : List Char) : (cut text).length ≤ 29 := by
  unfold cut longest
  split
  · rw [List.length_append, List.length_take]
    exact Nat.add_le_add_right (min_le_left 26 text.length) 3
  · omega

/-- Of a text that was escaped the text itself is shown, however much it looks like an escaped one,
or its first 26 characters; and of no text at all more than 29 characters are shown. -/
theorem shown_unescapes_once (label : Label) (text : String) :
    ({ label with text := String.ofList (escape text.toList) } : Label).shown =
        (if text.length ≤ 26 then text else String.ofList (text.toList.take 26) ++ "...") ∧
      label.shown.length ≤ 29 := by
  constructor
  · rw [shown, String.toList_ofList, displayed, unescape_escape, cut, longest, String.length_toList]
    by_cases short : text.length ≤ 26
    · rw [if_pos short, if_neg (Nat.not_lt.mpr short), String.ofList_toList]
    · rw [if_neg short, if_pos (Nat.lt_of_not_le short), String.ofList_append]
  · rw [shown, String.length_ofList]
    exact length_cut_le _

example : unescape (escape "&quot;&amp;".toList) = "&quot;&amp;".toList := by decide

end Label

end Cartograph

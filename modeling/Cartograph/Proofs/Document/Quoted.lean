import Mathlib
import Cartograph.Document.Printer
import Cartograph.Document.Reader

/-! Texts read back from documents. A text may hold any characters: those that cannot stand in a
document as they are have an escape, and the scanner takes every escape for the character that it
was written for. -/

namespace Cartograph.Document

open Scanner

theorem unit_of_char (c : Char) :
    isHighSurrogate c.toNat = false ∧ isLowSurrogate c.toNat = false := by
  have valid := c.valid
  simp only [isHighSurrogate, isLowSurrogate, Bool.and_eq_false_iff, decide_eq_false_iff_not]
  change c.toNat < 0xD800 ∨ 0xDFFF < c.toNat ∧ c.toNat < 0x110000 at valid
  omega

theorem join_cons (c : Char) (units : List Nat) :
    join? (c.toNat :: units) = (join? units).map (c :: ·) := by
  obtain ⟨not_high, not_low⟩ := unit_of_char c
  cases units with
  | nil => simp [join?, not_high, not_low]
  | cons next rest => simp [join?, not_high, not_low]

theorem join_units (text : List Char) : join? (text.map Char.toNat) = some text := by
  induction text with
  | nil => rfl
  | cons c rest joined => rw [List.map_cons, join_cons, joined, Option.map_some]

theorem hexadecimal_control : ∀ code : Fin 0x20, Number.hexadecimal 4 code =
    ['0', '0', Nat.digitChar (code / 16), Nat.digitChar (code % 16)] := by
  decide

theorem hexDigit_digitChar : ∀ digit : Fin 16,
    hexDigit? (Nat.digitChar digit) = some digit.val := by
  decide

section Scan

variable (units : List Nat) (rest : List Char)

theorem scan_letter (letter : Char) (unit : Nat) (named : letter ≠ 'u')
    (meaning : escaped? letter = some unit) :
    (Scanner.quote units).scan ('\\' :: letter :: rest) =
      (Scanner.quote (unit :: units)).scan rest := by
  simp [scan, step, named, meaning]

theorem scan_control (code : Nat) (control : code < 0x20) :
    (Scanner.quote units).scan ('\\' :: 'u' :: Number.hexadecimal 4 code ++ rest) =
      (Scanner.quote (code :: units)).scan rest := by
  have sixteens := hexDigit_digitChar ⟨code / 16, by omega⟩
  have ones := hexDigit_digitChar ⟨code % 16, by omega⟩
  have zero : hexDigit? '0' = some 0 := by decide
  have whole : 16 * (code / 16) + code % 16 = code := Nat.div_add_mod code 16
  rw [hexadecimal_control ⟨code, control⟩]
  simp [scan, step, sixteens, ones, zero, whole]

theorem scan_escape (c : Char) :
    (Scanner.quote units).scan (escape c ++ rest) =
      (Scanner.quote (c.toNat :: units)).scan rest := by
  unfold escape
  split_ifs with is_quote is_backslash is_b is_f is_n is_r is_t is_control
  · rw [is_quote]
    exact scan_letter units rest '"' _ (by decide) rfl
  · rw [is_backslash]
    exact scan_letter units rest '\\' _ (by decide) rfl
  · rw [is_b]
    exact scan_letter units rest 'b' _ (by decide) rfl
  · rw [is_f]
    exact scan_letter units rest 'f' _ (by decide) rfl
  · rw [is_n]
    exact scan_letter units rest 'n' _ (by decide) rfl
  · rw [is_r]
    exact scan_letter units rest 'r' _ (by decide) rfl
  · rw [is_t]
    exact scan_letter units rest 't' _ (by decide) rfl
  · exact scan_control units rest c.toNat is_control
  · simp [scan, step, is_quote, is_backslash, is_control]

theorem scan_escapes (text : List Char) :
    (Scanner.quote units).scan (text.flatMap escape ++ rest) =
      (Scanner.quote ((text.map Char.toNat).reverse ++ units)).scan rest := by
  induction text generalizing units with
  | nil => rfl
  | cons c more later =>
    rw [List.flatMap_cons, List.append_assoc, scan_escape, later, List.map_cons, List.reverse_cons,
      List.append_assoc, List.singleton_append]

end Scan

theorem lexemes_quote (text : String) :
    lexemes (Document.quote text).toList = [.scalar (.text (some text))] := by
  have opened : (Document.quote text).toList =
      '"' :: (text.toList.flatMap escape ++ ['"']) := String.toList_ofList
  have closed (units : List Nat) : (Scanner.quote units).scan ['"'] = [quoted units] := rfl
  have begun (rest : List Char) : between.scan ('"' :: rest) = (Scanner.quote []).scan rest := rfl
  rw [lexemes, opened, begun, scan_escapes, closed, quoted, List.append_nil, List.reverse_reverse,
    join_units, Option.map_some, String.ofList_toList]

theorem parse_text (text : String) :
    parse (ofText text).compact = ⟨.text (some text), true⟩ := by
  have written : (ofText text).compact = Document.quote text := by rw [ofText, compact]; rfl
  rw [written, parse, lexemes_quote]
  simp [assemble, assemble.finish, place]

end Cartograph.Document

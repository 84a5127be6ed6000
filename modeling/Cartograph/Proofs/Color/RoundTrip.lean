import Cartograph.Color.Printer
import Cartograph.Proofs.Color.Bytes
import Cartograph.Proofs.Document.Quoted
import Cartograph.Proofs.Number.RoundTrip
import Cartograph.Proofs.Text.Trim
import Cartograph.Record.Style

/-! Colors read back from their text. A color is written with its channels as bytes, in digits
where nothing shines through and as a function otherwise, and both forms are read as the same
bytes. So the text of a color that was read is the text of exactly that color. -/

namespace Cartograph.Color

open Number

section Numbers

theorem isSpace_of_isDigit (c : Char) (digit : c.isDigit = true) : isSpace c = false := by
  have code := Numeral.code_of_isDigit c digit
  have other (space : Char) (low : space.toNat < 48) : c ≠ space := by
    rintro rfl
    omega
  simp [isSpace, other ' ' (by decide), other '\t' (by decide), other '\n' (by decide),
    other '\r' (by decide)]

def Ends (c : Char) : Prop := c = ',' ∨ c = ')'

section Ending

variable (c : Char) (rest : List Char)

section Digits

variable (stops : Ends c ∨ c = '.') (digits : List Char) (isDigits : Numeral.IsDigits digits)

include stops isDigits

theorem takeWhile_ends : (digits ++ c :: rest).takeWhile Char.isDigit = digits := by
  have stop : c.isDigit = false := by rcases stops with (rfl | rfl) | rfl <;> rfl
  rw [List.takeWhile_append_of_pos isDigits, List.takeWhile_cons_of_neg (by simp [stop]),
    List.append_nil]

theorem dropWhile_ends : (digits ++ c :: rest).dropWhile Char.isDigit = c :: rest := by
  have stop : c.isDigit = false := by rcases stops with (rfl | rfl) | rfl <;> rfl
  rw [List.dropWhile_append_of_pos isDigits, List.dropWhile_cons_of_neg (by simp [stop])]

end Digits

theorem number_digits (first : Char) (more text : List Char)
    (digits : Numeral.IsDigits (first :: more)) :
    skipSpaces (first :: (more ++ text)) = first :: (more ++ text) ∧ first ≠ '+' ∧ first ≠ '-' := by
  have digit := digits first List.mem_cons_self
  refine ⟨List.dropWhile_cons_of_neg (by simp [isSpace_of_isDigit first digit]), ?_, ?_⟩
  all_goals
    rintro rfl
    cases digit

variable (ends : Ends c)

include ends

theorem exponentPart_ends : exponentPart? (c :: rest) = some ([], c :: rest) := by
  rcases ends with rfl | rfl <;> simp [exponentPart?]

theorem number_whole (first : Char) (more : List Char) (x : Float)
    (digits : Numeral.IsDigits (first :: more)) (read : Number.read? (first :: more) = some x)
    (finite : x.isFinite = true) :
    number? (first :: (more ++ c :: rest)) = some (x, c :: rest) := by
  obtain ⟨start, not_plus, not_minus⟩ := number_digits first more (c :: rest) digits
  have taken := takeWhile_ends c rest (.inl ends) (first :: more) digits
  have dropped := dropWhile_ends c rest (.inl ends) (first :: more) digits
  have not_point : c ≠ '.' := by rcases ends with rfl | rfl <;> decide
  rw [List.cons_append] at taken dropped
  simp [number?, start, not_plus, not_minus, not_point, taken, dropped,
    exponentPart_ends c rest ends, read, finite]

theorem number_point (first : Char) (more fraction : List Char) (x : Float)
    (digits : Numeral.IsDigits (first :: more)) (fraction_digits : Numeral.IsDigits fraction)
    (read : Number.read? (first :: (more ++ '.' :: fraction)) = some x)
    (finite : x.isFinite = true) :
    number? (first :: (more ++ '.' :: (fraction ++ c :: rest))) = some (x, c :: rest) := by
  obtain ⟨start, not_plus, not_minus⟩ :=
    number_digits first more ('.' :: (fraction ++ c :: rest)) digits
  have taken := takeWhile_ends '.' (fraction ++ c :: rest) (.inr rfl) (first :: more) digits
  have dropped := dropWhile_ends '.' (fraction ++ c :: rest) (.inr rfl) (first :: more) digits
  rw [List.cons_append] at taken dropped
  simp [number?, start, not_plus, not_minus, taken, dropped,
    takeWhile_ends c rest (.inl ends) fraction fraction_digits,
    dropWhile_ends c rest (.inl ends) fraction fraction_digits, exponentPart_ends c rest ends, read,
    finite]

theorem number_text (x : Float) (mantissa : Nat) (exponent : Int)
    (parts : ofDouble x = .finite false mantissa exponent) :
    number? ((Number.text x).toList ++ c :: rest) = some (x, c :: rest) := by
  have finite := isFinite_of_parts x false mantissa exponent parts
  have read := read_text x
  obtain ⟨first, more, digits, shape⟩ := Numeral.placePoint_parts _
    (shortest .double .up mantissa exponent).exponent
    (Numeral.isDigits_toDigits (shortest .double .up mantissa exponent).digits)
    Nat.toDigits_ne_nil
  rw [text_toList, parts, writeBinary_finite, written] at read ⊢
  rcases shape with whole | ⟨fraction, fraction_digits, point⟩
  · rw [whole] at read ⊢
    exact number_whole c rest ends first more x digits read finite
  · rw [point] at read ⊢
    simpa using number_point c rest ends first more fraction x digits fraction_digits read finite

theorem number_toString (n : Nat) (small : n < 2 ^ 53) :
    number? ((toString n).toList ++ c :: rest) = some (Float.ofNat n, c :: rest) := by
  have written : (toString n).toList = Nat.toDigits 10 n := String.toList_ofList
  have digits := Numeral.isDigits_toDigits n
  obtain ⟨first, more, shape⟩ := List.exists_cons_of_ne_nil (Nat.toDigits_ne_nil (n := n) (b := 10))
  have read : Number.read? (Nat.toDigits 10 n) = some (Float.ofNat n) := by
    have magnitude := Numeral.magnitude_whole false _ digits Nat.toDigits_ne_nil
    have unsigned := Numeral.read_digit false first more (digits first (by simp [shape]))
    rw [← shape, magnitude, Numeral.natural_toDigits] at unsigned
    exact congrArg (Option.map Numeral.toFloat) unsigned
  rw [shape] at digits read
  rw [written, shape]
  exact number_whole c rest ends first more _ digits read (value_ofNat n small).1

end Ending

theorem number_space (text : List Char) : number? (' ' :: text) = number? text := rfl

theorem listNumber_toString (n : Nat) (small : n < 2 ^ 53) (rest : List Char) :
    listNumber? (' ' :: ((toString n).toList ++ ',' :: rest)) = some (Float.ofNat n, rest) := by
  rw [listNumber?, number_space, number_toString ',' rest (.inl rfl) n small]
  rfl

end Numbers

theorem rgb_plain (text rest : List Char) (first : Float)
    (read : number? text = some (first, ',' :: rest)) :
    rgb? text = (listNumber? rest).bind fun (green, rest) => (listNumber? rest).bind
      fun (blue, rest) => (alpha? rest).bind fun (alpha, rest) =>
        some (⟨channelByte first, channelByte green, channelByte blue, alpha⟩, rest) := by
  rw [rgb?, read]
  rfl

theorem named_rgba (text : List Char) :
    named? ('r' :: 'g' :: 'b' :: 'a' :: '(' :: text) = rgb? text := by
  have name : ('r' :: 'g' :: 'b' :: 'a' :: '(' :: text).takeWhile isNameCharacter =
      ['r', 'g', 'b', 'a'] := rfl
  have rest : ('r' :: 'g' :: 'b' :: 'a' :: '(' :: text).dropWhile isNameCharacter =
      '(' :: text := rfl
  simp [named?, name, rest, opened?]

theorem bytes_named (first : Char) (text : List Char) (letter : isSpace first = false)
    (other : first ≠ '#') (bytes : Rgba Nat) (read : named? (first :: text) = some (bytes, [])) :
    bytes? (first :: text) = some bytes := by
  have start : skipSpaces (first :: text) = first :: text :=
    List.dropWhile_cons_of_neg (by simp [letter])
  have complete : skipSpaces [] = [] := rfl
  simp [bytes?, start, other, read, complete]

theorem bytes_hash (text : List Char) (bytes : Rgba Nat) (read : hash? text = some (bytes, [])) :
    bytes? ('#' :: text) = some bytes := by
  have start : skipSpaces ('#' :: text) = '#' :: text := rfl
  have complete : skipSpaces [] = [] := rfl
  simp [bytes?, start, read, complete]

section Function

variable (bytes : Rgba Nat) (small : bytes.IsBytes)

/-- The share of the full alpha that is written has no sign. -/
theorem alpha_parts (least : bytes.alpha ≤ 255) :
    ∃ mantissa exponent,
      ofDouble (Float.ofNat bytes.alpha / 255) = .finite false mantissa exponent := by
  obtain ⟨finite, above, -, near⟩ := value_share bytes.alpha least
  obtain ⟨negative, mantissa, exponent, parts⟩ := parts_of_isFinite _ finite
  cases negative with
  | false => exact ⟨mantissa, exponent, parts⟩
  | true =>
    have none : bytes.alpha = 0 := by
      have value_eq : value (Float.ofNat bytes.alpha / 255) = -1 * (mantissa * 2 ^ exponent) := by
        rw [value_of_parts _ _ _ _ parts]
        rfl
      have size : (0 : ℚ) ≤ mantissa * 2 ^ exponent := by positivity
      have nothing : value (Float.ofNat bytes.alpha / 255) = 0 := le_antisymm (by linarith) above
      have bound := (abs_le.mp near).1
      rw [nothing] at bound
      have tiny : (2 : ℚ) ^ (-52 : Int) < 1 / 255 := by norm_num
      have less : (bytes.alpha : ℚ) < 1 := by linarith
      exact Nat.lt_one_iff.mp (by exact_mod_cast less)
    have zero : ofDouble (Float.ofNat 0 / 255) = .finite false 0 (-1074) := by decide +kernel
    rw [none, zero] at parts
    cases parts

include small

theorem alpha_text :
    alpha? (' ' :: ((Number.text (Float.ofNat bytes.alpha / 255)).toList ++ [')'])) =
      some (bytes.alpha, []) := by
  obtain ⟨mantissa, exponent, parts⟩ := alpha_parts bytes small.alpha
  have read := number_text ')' [] (.inr rfl) _ mantissa exponent parts
  obtain ⟨first, rest, head, mark⟩ := text_finite_head _ _ _ _ parts
  have not_space : isSpace first = false := by
    rcases mark with digit | rfl
    · exact isSpace_of_isDigit first digit
    · rfl
  have not_closed : first ≠ ')' := by
    rintro rfl
    rcases mark with digit | other
    · cases digit
    · cases other
  have kept : skipSpaces (' ' :: first :: (rest ++ [')'])) = first :: (rest ++ [')']) := by
    change skipSpaces (first :: (rest ++ [')'])) = _
    exact List.dropWhile_cons_of_neg (by simp [not_space])
  have share := channelByte_share bytes.alpha small.alpha
  have closing : skipSeparator [')'] = [')'] := rfl
  rw [head, List.cons_append] at read ⊢
  have spaced : skipSpaces [')'] = [')'] := rfl
  simp [alpha?, kept, alphaByte?, not_closed, listNumber?, read, closing, share, spaced]

theorem rgb_text :
    rgb? ((toString bytes.red).toList ++ ',' :: ' ' :: ((toString bytes.green).toList ++
        ',' :: ' ' :: ((toString bytes.blue).toList ++
          ',' :: ' ' :: ((Number.text (Float.ofNat bytes.alpha / 255)).toList ++ [')'])))) =
      some (bytes, []) := by
  have red := number_toString ',' (' ' :: ((toString bytes.green).toList ++
    ',' :: ' ' :: ((toString bytes.blue).toList ++
      ',' :: ' ' :: ((Number.text (Float.ofNat bytes.alpha / 255)).toList ++ [')']))))
        (.inl rfl) bytes.red (by have := small.red; omega)
  have green := listNumber_toString bytes.green (by have := small.green; omega)
    (' ' :: ((toString bytes.blue).toList ++
      ',' :: ' ' :: ((Number.text (Float.ofNat bytes.alpha / 255)).toList ++ [')'])))
  have blue := listNumber_toString bytes.blue (by have := small.blue; omega)
    (' ' :: ((Number.text (Float.ofNat bytes.alpha / 255)).toList ++ [')']))
  simp only [rgb_plain _ _ _ red, green, blue, alpha_text bytes small, Option.bind_some,
    channelByte_ofNat _ small.red, channelByte_ofNat _ small.green, channelByte_ofNat _ small.blue]

theorem bytes_function :
    bytes? ('r' :: 'g' :: 'b' :: 'a' :: '(' :: ((toString bytes.red).toList ++
      ',' :: ' ' :: ((toString bytes.green).toList ++ ',' :: ' ' ::
        ((toString bytes.blue).toList ++ ',' :: ' ' ::
          ((Number.text (Float.ofNat bytes.alpha / 255)).toList ++ [')']))))) = some bytes := by
  apply bytes_named _ _ rfl (by decide)
  rw [named_rgba, rgb_text bytes small]

end Function

section Digits

theorem hexadecimal_byte (byte : Nat) (small : byte ≤ 255) : Number.hexadecimal 2 byte =
    [Nat.digitChar (byte / 16), Nat.digitChar (byte % 16)] := by
  unfold Number.hexadecimal
  rcases Nat.lt_or_ge byte 16 with short | long
  · rw [Nat.toDigits_of_lt_base short, Nat.div_eq_of_lt short, Nat.mod_eq_of_lt short]
    rfl
  · have high : byte / 16 < 16 := by omega
    have split := Nat.toDigits_append_toDigits (b := 16) (n := byte / 16) (d := byte % 16)
      (by decide) (by omega) (Nat.mod_lt byte (by decide))
    rw [Nat.div_add_mod, Nat.toDigits_of_lt_base high,
      Nat.toDigits_of_lt_base (Nat.mod_lt byte (by decide))] at split
    rw [← split]
    rfl

theorem digitChar_hex : ∀ digit < 16, isHex (Nat.digitChar digit) = true ∧
    hexValue (Nat.digitChar digit) = digit ∧ Text.isBlank (Nat.digitChar digit) = false := by
  decide

theorem bytes_digits (bytes : Rgba Nat) (small : bytes.IsBytes) (full_alpha : bytes.alpha = 255) :
    bytes? ('#' :: (Number.hexadecimal 2 bytes.red ++ (Number.hexadecimal 2 bytes.green ++
      Number.hexadecimal 2 bytes.blue))) = some bytes := by
  have high (byte : Nat) (least : byte ≤ 255) := digitChar_hex (byte / 16) (by omega)
  have low (byte : Nat) := digitChar_hex (byte % 16) (Nat.mod_lt byte (by decide))
  have whole (byte : Nat) : 16 * (byte / 16) + byte % 16 = byte := Nat.div_add_mod byte 16
  rw [hexadecimal_byte _ small.red, hexadecimal_byte _ small.green, hexadecimal_byte _ small.blue]
  apply bytes_hash
  simp [hash?, hexBytes?, high _ small.red, high _ small.green, high _ small.blue, low, whole,
    ← full_alpha]

end Digits

section Text

variable (color : Color)

theorem trim_text : Text.trim color.text.toList = color.text.toList := by
  have small := isBytes_bytes color
  by_cases full_alpha : color.bytes.alpha = 255
  · have last := (digitChar_hex (color.bytes.blue % 16) (Nat.mod_lt _ (by decide))).2.2
    have trimmed := Text.trim_of_ends '#' _ (Number.hexadecimal 2 color.bytes.red ++
      (Number.hexadecimal 2 color.bytes.green ++ [Nat.digitChar (color.bytes.blue / 16)]))
        (by decide) last
    rw [text_solid color full_alpha, hexadecimal_byte _ small.blue]
    simpa using trimmed
  · have trimmed := Text.trim_of_ends 'r' ')' ('g' :: 'b' :: 'a' :: '(' ::
      ((toString color.bytes.red).toList ++ ',' :: ' ' ::
        ((toString color.bytes.green).toList ++ ',' :: ' ' ::
          ((toString color.bytes.blue).toList ++ ',' :: ' ' ::
            (Number.text (Float.ofNat color.bytes.alpha / 255)).toList)))) (by decide) (by decide)
    rw [text_translucent color full_alpha]
    simpa using trimmed

theorem read_color_text : read? color.text = some (ofBytes color.bytes) := by
  have small := isBytes_bytes color
  have bytes : bytes? color.text.toList = some color.bytes := by
    by_cases full_alpha : color.bytes.alpha = 255
    · rw [text_solid color full_alpha]
      exact bytes_digits color.bytes small full_alpha
    · rw [text_translucent color full_alpha]
      exact bytes_function color.bytes small
  rw [read?, trim_text, bytes, Option.map_some]

end Text

theorem read_text_of_read (text : String) (color : Color) (read : read? text = some color) :
    read? color.text = some color := by
  obtain ⟨bytes, found, rfl⟩ := Option.map_eq_some_iff.mp read
  rw [read_color_text, bytes_ofBytes bytes (isBytes_of_read _ bytes found)]

theorem text_round_trip :
    (∀ color : Color, ∃ back, read? color.text = some back ∧ back.bytes = color.bytes ∧
      back.text = color.text) ∧
    ∀ (text : String) (color : Color), read? text = some color →
      read? color.text = some color ∧
        Document.decode decode color.toDocument.compact = .ok color := by
  constructor
  · intro color
    have same := bytes_ofBytes color.bytes (isBytes_bytes color)
    exact ⟨ofBytes color.bytes, read_color_text color, same, text_congr _ color same⟩
  · intro text color read
    have again := read_text_of_read text color read
    refine ⟨again, ?_⟩
    have decoded : decode (.text (some color.text)) = .ok color := by
      simp [decode, Document.decodeText, Except.bind, ofText?, again]
    rw [Document.decode, toDocument, Document.parse_text]
    simp only [decoded]
    rfl

theorem orange_round_trip :
    read? " #F80 " = some (ofBytes ⟨255, 136, 0, 255⟩) ∧
      Document.decode decode (ofBytes ⟨255, 136, 0, 255⟩).toDocument.compact =
        .ok (ofBytes ⟨255, 136, 0, 255⟩) := by
  have read : read? " #F80 " = some (ofBytes ⟨255, 136, 0, 255⟩) := by rfl
  exact ⟨read, (text_round_trip.2 _ _ read).2⟩

end Cartograph.Color

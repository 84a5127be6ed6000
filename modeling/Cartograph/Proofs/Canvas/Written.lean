import Cartograph.Canvas.Markup
import Cartograph.Proofs.Canvas.Xml
import Cartograph.Proofs.Number.RoundTrip

/-! What the lines of a drawing are written with. Attributes have values that stand for themselves,
and an escaped text is data for that text with its line ends unified. -/

namespace Cartograph.Markup

open Xml

theorem escape_cases (c : Char) :
    (∃ name, (name, c) ∈ entities ∧ escape c = '&' :: name.toList ++ [';']) ∨
      (c ≠ '&' ∧ c ≠ '<' ∧ c ≠ '>' ∧ escape c = [c]) := by
  by_cases ampersand : c = '&'
  · subst ampersand
    exact .inl ⟨"amp", by simp [entities], by decide⟩
  · by_cases less : c = '<'
    · subst less
      exact .inl ⟨"lt", by simp [entities], by decide⟩
    · by_cases greater : c = '>'
      · subst greater
        exact .inl ⟨"gt", by simp [entities], by decide⟩
      · by_cases quote : c = '"'
        · subst quote
          exact .inl ⟨"quot", by simp [entities], by decide⟩
        · exact .inr ⟨ampersand, less, greater, by simp [escape, ampersand, less, greater, quote]⟩

theorem head_escape (c : Char) (different : c ≠ '\n') (rest : List Char) :
    (escape c ++ rest).head? ≠ some '\n' := by
  rcases escape_cases c with ⟨name, -, written⟩ | ⟨-, -, -, written⟩
  · simp [written]
  · simp [written, different]

theorem data_escape (text : List Char) (readable : ∀ c ∈ text, isChar c = true) :
    Data (text.flatMap escape) (unify text) := by
  fun_induction unify text with
  | case1 => exact .done
  | case2 rest later =>
    obtain ⟨-, -, others⟩ := List.forall_mem_cons.mp readable |>.imp_right List.forall_mem_cons.mp
    exact .lineEnd (later others)
  | case3 rest alone later =>
    obtain ⟨-, others⟩ := List.forall_mem_cons.mp readable
    refine .carriageReturn ?_ (later others)
    cases rest with
    | nil => simp
    | cons c rest => exact head_escape c (fun feed => alone rest (by rw [feed])) _
  | case4 c rest _ other later =>
    obtain ⟨readable_c, others⟩ := List.forall_mem_cons.mp readable
    rw [List.flatMap_cons]
    rcases escape_cases c with ⟨name, known, written⟩ | ⟨ampersand, less, greater, written⟩
    · rw [written, List.append_assoc]
      exact .reference name c known (later others)
    · have not_return : c ≠ '\r' := other
      rw [written]
      refine .plain c ?_ (later others)
      simp [isDataPart, readable_c, ampersand, less, greater, not_return]

section Values

theorem isValue_append (first second : String) (first_valid : isValue first = true)
    (second_valid : isValue second = true) : isValue (first ++ second) = true := by
  rw [isValue, String.toList_append, List.all_append, Bool.and_eq_true]
  exact ⟨first_valid, second_valid⟩

theorem isValue_intercalate (separator : String) (valid : isValue separator = true)
    (parts : List String) (parts_valid : ∀ part ∈ parts, isValue part = true) :
    isValue (separator.intercalate parts) = true := by
  induction parts with
  | nil => rfl
  | cons part others later =>
    obtain ⟨part_valid, others_valid⟩ := List.forall_mem_cons.mp parts_valid
    cases others with
    | nil => simpa using part_valid
    | cons next rest =>
      rw [String.intercalate_cons_cons]
      exact isValue_append _ _ (isValue_append _ _ part_valid valid) (later others_valid)

theorem isValuePart_of_range (c : Char) (low : 0x27 ≤ c.toNat) (high : c.toNat ≤ 0x3B) :
    isValuePart c = true := by
  have different (mark : Char) (outside : mark.toNat < 0x27 ∨ 0x3B < mark.toNat) : c ≠ mark := by
    rintro rfl
    omega
  simp only [isValuePart, Bool.and_eq_true, decide_eq_true_eq]
  exact ⟨⟨⟨⟨isChar_of_range c (by omega) (by omega), by omega⟩, different _ (by decide)⟩,
    different _ (by decide)⟩, different _ (by decide)⟩

theorem isValue_number (x : Float) : isValue (Number.text x) = true := by
  cases parts : Number.ofDouble x with
  | notANumber =>
    rw [isValue, Number.text_toList, parts]
    rfl
  | infinite negative =>
    rw [isValue, Number.text_toList, parts]
    cases negative <;> rfl
  | finite negative mantissa exponent =>
    rw [isValue, List.all_eq_true]
    intro c member
    rcases Number.text_finite_chars x negative mantissa exponent parts c member with
      digit | rfl | rfl
    · obtain ⟨low, high⟩ := Number.Numeral.code_of_isDigit c digit
      exact isValuePart_of_range c (by omega) (by omega)
    · decide
    · decide

theorem isValuePart_toDigits (value : Nat) :
    ∀ c ∈ Nat.toDigits 16 value, isValuePart c = true := by
  have single (digit : Nat) (small : digit < 16) : isValuePart digit.digitChar = true := by
    revert digit
    decide
  induction value using Nat.strongRecOn with
  | ind value later =>
    rcases Nat.lt_or_ge value 16 with small | large
    · rw [Nat.toDigits_of_lt_base small, List.forall_mem_singleton]
      exact single value small
    · rw [Nat.toDigits_of_base_le (by decide) large, List.forall_mem_append,
        List.forall_mem_singleton]
      exact ⟨later _ (by omega), single _ (Nat.mod_lt _ (by decide))⟩

theorem isValue_hexPair (byte : Nat) : isValue (Color.hexPair byte) = true := by
  rw [isValue, Color.hexPair, String.toList_ofList, List.all_eq_true, Number.hexadecimal,
    List.forall_mem_append]
  refine ⟨?_, isValuePart_toDigits byte⟩
  intro c member
  rw [List.eq_of_mem_replicate member]
  decide

theorem isValue_hex (color : Color) : isValue color.hex = true :=
  isValue_append _ _ (isValue_append _ _ (isValue_append _ _ (by decide) (isValue_hexPair _))
    (isValue_hexPair _)) (isValue_hexPair _)

theorem isValue_point (p : Point Float) : isValue p.text = true :=
  isValue_append _ _ (isValue_append _ _ (isValue_number _) (by decide)) (isValue_number _)

theorem isValue_pathData (path : Path) : isValue (PathData.text path) = true := by
  apply isValue_intercalate " " (by decide)
  intro part member
  obtain ⟨element, -, rfl⟩ := List.mem_map.mp member
  cases element with
  | move p => exact isValue_append _ _ (by decide) (isValue_point p)
  | line p => exact isValue_append _ _ (by decide) (isValue_point p)
  | curve p q r =>
    have first := isValue_append "C " _ (by decide) (isValue_point p)
    have second := isValue_append _ _ (isValue_append _ " " first (by decide)) (isValue_point q)
    exact isValue_append _ _ (isValue_append _ " " second (by decide)) (isValue_point r)
  | close => decide

end Values

namespace Attribute

def pair (given : Attribute) : String × String := (given.name, given.value)

theorem written_toList (given : Attribute) :
    given.written.toList = attributeText given.pair := by
  simp [written, attributeText, pair]

structure Fits (names : List String) (attributes : List Attribute) : Prop where
  names_listed : (attributes.map Attribute.name).Sublist names
  values_valid : ∀ given ∈ attributes, isValue given.value = true

section Fits

variable {names others : List String} {attributes more : List Attribute}

theorem Fits.nil : Fits names [] :=
  ⟨List.nil_sublist _, fun _ member => absurd member List.not_mem_nil⟩

theorem Fits.cons (given : Attribute) (valid : isValue given.value = true)
    (fits : Fits names attributes) :
    Fits (given.name :: names) (given :: attributes) :=
  ⟨fits.names_listed.cons_cons _, List.forall_mem_cons.mpr ⟨valid, fits.values_valid⟩⟩

theorem Fits.append (first : Fits names attributes) (second : Fits others more) :
    Fits (names ++ others) (attributes ++ more) := by
  constructor
  · rw [List.map_append]
    exact first.names_listed.append second.names_listed
  · exact List.forall_mem_append.mpr ⟨first.values_valid, second.values_valid⟩

theorem isTag_of_fits (name : String) (valid : isName name = true)
    (distinct : names.Nodup) (names_valid : ∀ name ∈ names, isName name = true)
    (fits : Fits names attributes) :
    IsTag name (attributes.map pair)
      (name.toList ++ (Element.attributesText attributes).toList) := by
  have names_eq : (attributes.map pair).map Prod.fst = attributes.map Attribute.name := by
    rw [List.map_map]
    rfl
  refine ⟨valid, ?_, ?_, ?_⟩
  · rw [names_eq]
    exact distinct.sublist fits.names_listed
  · intro entry member
    obtain ⟨given, listed, rfl⟩ := List.mem_map.mp member
    have known := fits.names_listed.subset (List.mem_map_of_mem listed)
    exact ⟨names_valid _ known, fits.values_valid given listed⟩
  · rw [Element.attributesText, String.toList_join, List.flatMap_map, List.flatMap_map]
    simp only [written_toList]

theorem fits_number (name : String) (value : Float) : Fits [name] [number name value] :=
  .cons (number name value) (isValue_number value) .nil

theorem fits_paint (name : String) (color : Color) :
    Fits [name, name ++ "-opacity"] (paint name color) := by
  simp only [paint]
  split
  · exact .cons ⟨name, color.hex⟩ (isValue_hex color) (fits_number _ _)
  · exact .cons ⟨name, color.hex⟩ (isValue_hex color) .nil

theorem fits_lineCap (cap : LineCap) : Fits ["stroke-linecap"] (lineCap cap) := by
  cases cap with
  | butt => exact .nil
  | round => exact .cons ⟨"stroke-linecap", "round"⟩ (by decide) .nil
  | square => exact .cons ⟨"stroke-linecap", "square"⟩ (by decide) .nil

theorem fits_lineJoin (join : LineJoin) : Fits ["stroke-linejoin"] (lineJoin join) := by
  cases join with
  | miter => exact .nil
  | round => exact .cons ⟨"stroke-linejoin", "round"⟩ (by decide) .nil
  | bevel => exact .cons ⟨"stroke-linejoin", "bevel"⟩ (by decide) .nil

theorem fits_dash (lengths : List Float) : Fits ["stroke-dasharray"] (dash lengths) := by
  cases lengths with
  | nil => exact .nil
  | cons first rest =>
    refine .cons ⟨"stroke-dasharray", _⟩ (isValue_intercalate "," (by decide) _ ?_) .nil
    intro part member
    obtain ⟨length, -, rfl⟩ := List.mem_map.mp member
    exact isValue_number length

end Fits

def styleNames : List String := ["fill", "fill-opacity", "stroke", "stroke-opacity",
  "stroke-width", "stroke-linecap", "stroke-linejoin", "stroke-dasharray"]

theorem fits_ofStyle (style : Style) : Fits styleNames (ofStyle style) := by
  refine .append (?_ : Fits ["fill", "fill-opacity"] _) ?_
  · split
    · exact fits_paint "fill" _
    · exact .cons ⟨"fill", "none"⟩ (by decide) .nil
  · split
    · exact ((((fits_paint "stroke" _).append (fits_number "stroke-width" _)).append
        (fits_lineCap _)).append (fits_lineJoin _)).append (fits_dash _)
    · exact .nil

def textStyleNames : List String := ["x", "y", "font-size", "text-anchor", "fill", "fill-opacity",
  "stroke", "stroke-opacity", "stroke-width", "paint-order", "opacity"]

theorem fits_ofTextStyle (position : Point Float) (style : TextStyle) :
    Fits textStyleNames (ofTextStyle position style) := by
  have anchor_valid : isValue (anchorName style.anchor) = true := by
    cases style.anchor <;> decide
  have place : Fits ["x", "y", "font-size", "text-anchor"] [number "x" position.x,
      number "y" position.y, number "font-size" style.size,
      ⟨"text-anchor", anchorName style.anchor⟩] :=
    .cons (number "x" _) (isValue_number _) <| .cons (number "y" _) (isValue_number _) <|
      .cons (number "font-size" _) (isValue_number _) <|
        .cons ⟨"text-anchor", _⟩ anchor_valid .nil
  refine .append (.append (place.append (fits_paint "fill" _)) (?_ : Fits ["stroke",
    "stroke-opacity", "stroke-width", "paint-order"] _)) (?_ : Fits ["opacity"] _)
  · split
    · exact (fits_paint "stroke" _).append <| .cons (number "stroke-width" _) (isValue_number _) <|
        .cons ⟨"paint-order", "stroke"⟩ (by decide) .nil
    · exact .nil
  · split
    · exact fits_number _ _
    · exact .nil

end Attribute

end Cartograph.Markup

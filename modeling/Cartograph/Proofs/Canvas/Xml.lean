import Mathlib

/-! The part of XML 1.0 that drawings are written in: nested elements, their attributes, and data
with references to the five predefined entities. What drawings never hold is left out, so a text
that is a document here is one of the whole language: comments, instructions, document types,
references by number, names beyond ASCII, and a `>` in data that is not written as a reference. -/

namespace Cartograph.Xml

/-- The characters of the production `Char`; a `Char` is never a surrogate. -/
def isChar (c : Char) : Bool :=
  c = '\t' || c = '\n' || c = '\r' || (0x20 ≤ c.toNat && c.toNat ≤ 0xD7FF) ||
    (0xE000 ≤ c.toNat && c.toNat ≤ 0xFFFD) || 0x10000 ≤ c.toNat

def isBlank (c : Char) : Bool := c = ' ' || c = '\t' || c = '\n' || c = '\r'

def isNamePart (c : Char) : Bool := c.isAlphanum || c = '-'

def isName (name : String) : Bool :=
  match name.toList with
  | [] => false
  | first :: rest => first.isAlpha && rest.all isNamePart

def isValuePart (c : Char) : Bool :=
  isChar c && 0x20 ≤ c.toNat && c ≠ '"' && c ≠ '<' && c ≠ '&'

def isValue (value : String) : Bool := value.toList.all isValuePart

def isDataPart (c : Char) : Bool := isChar c && c ≠ '<' && c ≠ '&' && c ≠ '>' && c ≠ '\r'

def entities : List (String × Char) :=
  [("amp", '&'), ("lt", '<'), ("gt", '>'), ("quot", '"'), ("apos", '\'')]

/-- Character data and the text that it stands for, in which every line ends with a line feed. -/
inductive Data : List Char → List Char → Prop
  | done : Data [] []
  | plain (c : Char) (part : isDataPart c = true) {data text : List Char}
    (rest : Data data text) : Data (c :: data) (c :: text)
  | reference (name : String) (c : Char) (known : (name, c) ∈ entities) {data text : List Char}
    (rest : Data data text) : Data ('&' :: name.toList ++ ';' :: data) (c :: text)
  | lineEnd {data text : List Char} (rest : Data data text) :
    Data ('\r' :: '\n' :: data) ('\n' :: text)
  | carriageReturn {data text : List Char} (alone : data.head? ≠ some '\n')
    (rest : Data data text) : Data ('\r' :: data) ('\n' :: text)

def unify : List Char → List Char
  | [] => []
  | '\r' :: '\n' :: rest => '\n' :: unify rest
  | '\r' :: rest => '\n' :: unify rest
  | c :: rest => c :: unify rest

def attributeText (pair : String × String) : List Char :=
  ' ' :: pair.1.toList ++ '=' :: '"' :: pair.2.toList ++ ['"']

/-- A tag without its brackets. No name is given twice. -/
structure IsTag (name : String) (attributes : List (String × String)) (text : List Char) :
    Prop where
  name_valid : isName name = true
  names_distinct : (attributes.map Prod.fst).Nodup
  pairs_valid : ∀ pair ∈ attributes, isName pair.1 = true ∧ isValue pair.2 = true
  text_eq : text = name.toList ++ attributes.flatMap attributeText

inductive Tree where
  | leaf (name : String) (attributes : List (String × String)) (text : List Char)
  | parent (name : String) (attributes : List (String × String)) (children : List Tree)

namespace Tree

mutual

def contents : Tree → List (List Char)
  | leaf name _ text => if name = "text" then [text] else []
  | parent _ _ children => contentsAll children

def contentsAll : List Tree → List (List Char)
  | [] => []
  | tree :: trees => contents tree ++ contentsAll trees

end

theorem contentsAll_append (first second : List Tree) :
    contentsAll (first ++ second) = contentsAll first ++ contentsAll second := by
  induction first with
  | nil => rfl
  | cons tree trees later =>
    rw [List.cons_append, contentsAll, contentsAll, later, List.append_assoc]

end Tree

mutual

inductive Element : Tree → List Char → Prop
  | empty {name : String} {attributes : List (String × String)} {tag : List Char}
    (opening : IsTag name attributes tag) :
    Element (.leaf name attributes []) ('<' :: tag ++ ['/', '>'])
  | leaf {name : String} {attributes : List (String × String)} {tag data text : List Char}
    (opening : IsTag name attributes tag) (inner : Data data text) :
    Element (.leaf name attributes text)
      ('<' :: tag ++ '>' :: data ++ '<' :: '/' :: name.toList ++ ['>'])
  | parent {name : String} {attributes : List (String × String)} {tag inner : List Char}
    {children : List Tree} (opening : IsTag name attributes tag)
    (nested : Elements children inner) :
    Element (.parent name attributes children)
      ('<' :: tag ++ '>' :: inner ++ '<' :: '/' :: name.toList ++ ['>'])

inductive Elements : List Tree → List Char → Prop
  | done {blanks : List Char} (blank : ∀ c ∈ blanks, isBlank c = true) : Elements [] blanks
  | next {blanks text later : List Char} {tree : Tree} {trees : List Tree}
    (blank : ∀ c ∈ blanks, isBlank c = true) (first : Element tree text)
    (rest : Elements trees later) : Elements (tree :: trees) (blanks ++ text ++ later)

end

def IsDocument (tree : Tree) (text : List Char) : Prop :=
  ∃ element blanks, Element tree element ∧ (∀ c ∈ blanks, isBlank c = true) ∧
    text = element ++ blanks

theorem Elements.blanks {trees : List Tree} {later : List Char} (elements : Elements trees later)
    (blanks : List Char) (blank : ∀ c ∈ blanks, isBlank c = true) :
    Elements trees (blanks ++ later) := by
  cases elements with
  | done others => exact .done (List.forall_mem_append.mpr ⟨blank, others⟩)
  | next others first rest =>
    rw [← List.append_assoc, ← List.append_assoc]
    exact .next (List.forall_mem_append.mpr ⟨blank, others⟩) first rest

theorem unify_eq_self (text : List Char) (none : '\r' ∉ text) : unify text = text := by
  fun_induction unify text with
  | case1 => rfl
  | case2 | case3 => exact absurd List.mem_cons_self none
  | case4 c rest _ _ later => rw [later fun member => none (List.mem_cons_of_mem c member)]

section Characters

theorem isChar_of_range (c : Char) (low : 0x20 ≤ c.toNat) (high : c.toNat ≤ 0xD7FF) :
    isChar c = true := by
  simp [isChar, low, high]

theorem isChar_of_isNamePart (c : Char) (part : isNamePart c = true) : isChar c = true := by
  simp only [isNamePart, Char.isAlphanum, Char.isAlpha, Char.isUpper, Char.isLower, Char.isDigit,
    Bool.or_eq_true, Bool.and_eq_true, decide_eq_true_eq, ge_iff_le, UInt32.le_iff_toNat_le] at part
  change (((65 ≤ c.toNat ∧ c.toNat ≤ 90) ∨ (97 ≤ c.toNat ∧ c.toNat ≤ 122)) ∨
    (48 ≤ c.toNat ∧ c.toNat ≤ 57)) ∨ c = '-' at part
  rcases part with letter | rfl
  · apply isChar_of_range <;> omega
  · decide

theorem isChar_of_isBlank (c : Char) (blank : isBlank c = true) : isChar c = true := by
  simp only [isBlank, Bool.or_eq_true, decide_eq_true_eq] at blank
  rcases blank with ((rfl | rfl) | rfl) | rfl <;> decide

theorem chars_name (name : String) (valid : isName name = true) :
    ∀ c ∈ name.toList, isChar c = true := by
  unfold isName at valid
  split at valid
  · cases valid
  · next first rest letters =>
    rw [letters]
    obtain ⟨letter, parts⟩ := Bool.and_eq_true_iff.mp valid
    rw [List.all_eq_true] at parts
    have first_part : isNamePart first = true := by simp [isNamePart, Char.isAlphanum, letter]
    exact List.forall_mem_cons.mpr ⟨isChar_of_isNamePart first first_part,
      fun c member => isChar_of_isNamePart c (parts c member)⟩

theorem chars_attribute (pair : String × String) (name_valid : isName pair.1 = true)
    (value_valid : isValue pair.2 = true) : ∀ c ∈ attributeText pair, isChar c = true := by
  have value : ∀ c ∈ pair.2.toList, isChar c = true := by
    intro c member
    have part := List.all_eq_true.mp value_valid c member
    simp only [isValuePart, Bool.and_eq_true] at part
    exact part.1.1.1.1
  rw [attributeText, List.forall_mem_append, List.forall_mem_append, List.forall_mem_cons,
    List.forall_mem_cons, List.forall_mem_cons]
  exact ⟨⟨⟨rfl, chars_name _ name_valid⟩, rfl, rfl, value⟩, List.forall_mem_singleton.mpr rfl⟩

theorem IsTag.chars {name : String} {attributes : List (String × String)} {text : List Char}
    (tag : IsTag name attributes text) : ∀ c ∈ text, isChar c = true := by
  rw [tag.text_eq, List.forall_mem_append]
  refine ⟨chars_name name tag.name_valid, ?_⟩
  intro c member
  obtain ⟨pair, listed, inside⟩ := List.mem_flatMap.mp member
  obtain ⟨name_valid, value_valid⟩ := tag.pairs_valid pair listed
  exact chars_attribute pair name_valid value_valid c inside

theorem isName_of_entity : ∀ entity ∈ entities, isName entity.1 = true := by decide

theorem Data.chars {data text : List Char} (derived : Data data text) :
    ∀ c ∈ data, isChar c = true := by
  induction derived with
  | done => exact fun c member => absurd member List.not_mem_nil
  | plain c part _ later =>
    simp only [isDataPart, Bool.and_eq_true] at part
    exact List.forall_mem_cons.mpr ⟨part.1.1.1.1, later⟩
  | reference name c known _ later =>
    rw [List.forall_mem_append, List.forall_mem_cons, List.forall_mem_cons]
    exact ⟨⟨rfl, chars_name name (isName_of_entity _ known)⟩, rfl, later⟩
  | lineEnd _ later =>
    exact List.forall_mem_cons.mpr ⟨rfl, List.forall_mem_cons.mpr ⟨rfl, later⟩⟩
  | carriageReturn _ _ later => exact List.forall_mem_cons.mpr ⟨rfl, later⟩

theorem chars_enclosed {name : String} {attributes : List (String × String)}
    {tag inner : List Char} (opening : IsTag name attributes tag)
    (inside : ∀ c ∈ inner, isChar c = true) :
    ∀ c ∈ '<' :: tag ++ '>' :: inner ++ '<' :: '/' :: name.toList ++ ['>'], isChar c = true := by
  rw [List.forall_mem_append, List.forall_mem_append, List.forall_mem_append,
    List.forall_mem_cons, List.forall_mem_cons, List.forall_mem_cons, List.forall_mem_cons]
  exact ⟨⟨⟨⟨rfl, opening.chars⟩, rfl, inside⟩, rfl, rfl, chars_name _ opening.name_valid⟩,
    List.forall_mem_singleton.mpr rfl⟩

mutual

theorem Element.chars {tree : Tree} {text : List Char} :
    Element tree text → ∀ c ∈ text, isChar c = true
  | .empty opening => by
    rw [List.forall_mem_append, List.forall_mem_cons, List.forall_mem_cons]
    exact ⟨⟨rfl, opening.chars⟩, rfl, List.forall_mem_singleton.mpr rfl⟩
  | .leaf opening inner => chars_enclosed opening inner.chars
  | .parent opening nested => chars_enclosed opening nested.chars

theorem Elements.chars {trees : List Tree} {text : List Char} :
    Elements trees text → ∀ c ∈ text, isChar c = true
  | .done blank => fun c member => isChar_of_isBlank c (blank c member)
  | .next blank first rest => by
    rw [List.forall_mem_append, List.forall_mem_append]
    exact ⟨⟨fun c member => isChar_of_isBlank c (blank c member), first.chars⟩, rest.chars⟩

end

theorem IsDocument.chars {tree : Tree} {text : List Char} (document : IsDocument tree text) :
    ∀ c ∈ text, isChar c = true := by
  obtain ⟨element, blanks, derived, blank, rfl⟩ := document
  rw [List.forall_mem_append]
  exact ⟨derived.chars, fun c member => isChar_of_isBlank c (blank c member)⟩

end Characters

end Cartograph.Xml

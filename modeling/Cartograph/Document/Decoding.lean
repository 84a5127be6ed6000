import Cartograph.Document.Magnitude
import Cartograph.Document.Reader
import Cartograph.Table

/-! Reading values out of documents. Parts are read in the order in which they are written, so
the fault reported is the first one of the text. -/

namespace Cartograph.Document

inductive Fault where
  | malformed
  /-- A text has the right place but not the right content. -/
  | rejected (reason : String)
  deriving DecidableEq, Repr

abbrev Decoder (α : Type) := Document → Except Fault α

def decode {α : Type} (decoder : Decoder α) (text : String) : Except Fault α := do
  let reading := parse text
  let value ← decoder reading.value
  if reading.complete then return value else .error .malformed

def decodeBool : Decoder Bool
  | .bool value => .ok value
  | _ => .error .malformed

def decodeText : Decoder String
  | .text (some content) => .ok content
  | _ => .error .malformed

/-- A number too large for a double is refused. -/
def decodeFloat : Decoder Float
  | .number literal =>
    match real? literal.toList with
    | some x => .ok x
    | none => .error .malformed
  | _ => .error .malformed

/-- Unsigned 64-bit integers, written without point and exponent. -/
def decodeNatural : Decoder Nat
  | .number literal =>
    let digits := literal.toList
    if digits.all Char.isDigit ∧ Number.Numeral.natural digits < Number.twoTo 64 then
      .ok (Number.Numeral.natural digits)
    else .error .malformed
  | _ => .error .malformed

def decodeOptional {α : Type} (decoder : Decoder α) : Decoder (Option α)
  | .null => .ok none
  | value => (decoder value).map some

def decodeList {α : Type} (decoder : Decoder α) : Decoder (List α)
  | .list items => items.mapM decoder
  | _ => .error .malformed

def decodeTable {α : Type} (decoder : Decoder α) : Decoder (Table α)
  | .record members => do
    let entries ← members.mapM fun (name, value) => do
      match name with
      | some name => return (name, ← decoder value)
      | none => .error .malformed
    return Table.ofList entries
  | _ => .error .malformed

/-- One of a few words, alone or as the name of an empty value. -/
def decodeWord {α : Type} (meanings : List (String × α)) : Decoder α
  | .text (some word) => find word
  | .record [(some word, .null)] => find word
  | _ => .error .malformed
where
  find (word : String) : Except Fault α :=
    match meanings.lookup word with
    | some meaning => .ok meaning
    | none => .error .malformed

structure Slot (ρ : Type) where
  name : String
  isRequired : Bool
  set : Document → ρ → Except Fault ρ

namespace Slot

def required {ρ α : Type} (name : String) (decoder : Decoder α) (put : ρ → α → ρ) : Slot ρ where
  name := name
  isRequired := true
  set := fun value built => (decoder value).map (put built)

def optional {ρ α : Type} (name : String) (decoder : Decoder α) (put : ρ → α → ρ) : Slot ρ where
  name := name
  isRequired := false
  set := fun value built => (decoder value).map (put built)

end Slot

/-- Members in the order of the text. A field may come once; other members are skipped. -/
def decodeMembers {ρ : Type} (fields : List (Slot ρ)) :
    List (Option String × Document) → List String → ρ → Except Fault ρ
  | [], seen, built =>
    if fields.all fun field => !field.isRequired || seen.contains field.name then .ok built
    else .error .malformed
  | (none, _) :: _, _, _ => .error .malformed
  | (some name, value) :: rest, seen, built =>
    match fields.find? (·.name == name) with
    | some field =>
      if seen.contains name then .error .malformed
      else do
        let built ← field.set value built
        decodeMembers fields rest (name :: seen) built
    | none =>
      if value.intact then decodeMembers fields rest seen built else .error .malformed

/-- Values in the order of the fields, of which those at the end may be left out. -/
def decodeInOrder {ρ : Type} : List (Slot ρ) → List Document → ρ → Except Fault ρ
  | [], [], built => .ok built
  | [], _ :: _, _ => .error .malformed
  | field :: fields, [], built =>
    if field.isRequired then .error .malformed else decodeInOrder fields [] built
  | field :: fields, value :: rest, built => do
    let built ← field.set value built
    decodeInOrder fields rest built

/-- `blank` gives the values of the fields that are left out. -/
def decodeRecord {ρ : Type} (fields : List (Slot ρ)) (blank : ρ) : Decoder ρ
  | .record members => decodeMembers fields members [] blank
  | .list items => decodeInOrder fields items blank
  | _ => .error .malformed

end Cartograph.Document

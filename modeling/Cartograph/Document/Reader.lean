import Cartograph.Document.Lexeme

/-! Assembling a document from its lexemes. The containers that are part way through are held
in a list of frames. Where the text goes wrong the frames are closed around a broken part, so
that everything before it can still be looked at in reading order. -/

namespace Cartograph.Document

inductive Frame where
  | list (done : List Document)
  /-- The name read last waits for its value. -/
  | record (done : List (Option String × Document)) (name : Option (Option String))

inductive Expecting where
  | value
  | firstItem
  | firstName
  | name
  | colon
  | separator
  deriving DecidableEq

structure Reading where
  value : Document
  complete : Bool

def closeAround : List Frame → Document → Document
  | [], inner => inner
  | .list done :: frames, inner => closeAround frames (.list (inner :: done).reverse)
  | .record done (some name) :: frames, inner =>
    closeAround frames (.record ((name, inner) :: done).reverse)
  | .record done none :: frames, inner =>
    closeAround frames (.record ((none, inner) :: done).reverse)

/-- What follows a finished value: the rest of its container, or the end of the document. -/
inductive Placed where
  | inside (frames : List Frame)
  | whole

def place (value : Document) : List Frame → Placed
  | [] => .whole
  | .list done :: frames => .inside (.list (value :: done) :: frames)
  | .record done name :: frames =>
    .inside (.record ((name.getD none, value) :: done) none :: frames)

def stopped (frames : List Frame) : Reading := ⟨closeAround frames .broken, false⟩

def assemble (frames : List Frame) (expecting : Expecting) : List Lexeme → Reading
  | [] => stopped frames
  | lexeme :: rest =>
    match expecting, frames, lexeme with
    | .separator, .list _ :: _, .mark ',' => assemble frames .value rest
    | .separator, .record _ _ :: _, .mark ',' => assemble frames .name rest
    | .colon, _, .mark ':' => assemble frames .value rest
    | .firstName, .record done _ :: outer, .scalar (.text name) =>
      assemble (.record done (some name) :: outer) .colon rest
    | .name, .record done _ :: outer, .scalar (.text name) =>
      assemble (.record done (some name) :: outer) .colon rest
    | .value, _, .mark '[' => assemble (.list [] :: frames) .firstItem rest
    | .firstItem, _, .mark '[' => assemble (.list [] :: frames) .firstItem rest
    | .value, _, .mark '\x7b' => assemble (.record [] none :: frames) .firstName rest
    | .firstItem, _, .mark '\x7b' => assemble (.record [] none :: frames) .firstName rest
    | .value, _, .scalar value => finish value frames rest
    | .firstItem, _, .scalar value => finish value frames rest
    | .firstItem, .list done :: outer, .mark ']' => finish (.list done.reverse) outer rest
    | .separator, .list done :: outer, .mark ']' => finish (.list done.reverse) outer rest
    | .firstName, .record done _ :: outer, .mark '\x7d' => finish (.record done.reverse) outer rest
    | .separator, .record done _ :: outer, .mark '\x7d' => finish (.record done.reverse) outer rest
    | _, _, _ => stopped frames
where
  finish (value : Document) (frames : List Frame) (rest : List Lexeme) : Reading :=
    match place value frames with
    | .whole => ⟨value, rest.isEmpty⟩
    | .inside frames => assemble frames .separator rest

def parse (text : String) : Reading := assemble [] .value (lexemes text.toList)

end Cartograph.Document

import Cartograph.Document.Basic
import Cartograph.Number.Notation
import Cartograph.Table

/-! Writing documents, on one line or spread over lines with two spaces for each level. -/

namespace Cartograph.Document

def ofFloat (x : Float) : Document := .number (Number.Notation.document.write x)

def ofNat (n : Nat) : Document := .number (toString n)

def ofText (text : String) : Document := .text (some text)

def ofOption {α : Type} (write : α → Document) : Option α → Document
  | none => .null
  | some value => write value

def ofList {α : Type} (write : α → Document) (items : List α) : Document :=
  .list (items.map write)

def ofMembers (members : List (String × Document)) : Document :=
  .record (members.map fun (name, value) => (some name, value))

def ofTable {α : Type} (write : α → Document) (table : Table α) : Document :=
  ofMembers (table.entries.map fun (name, value) => (name, write value))

def escape (c : Char) : List Char :=
  if c = '"' then ['\\', '"']
  else if c = '\\' then ['\\', '\\']
  else if c = '\x08' then ['\\', 'b']
  else if c = '\x0c' then ['\\', 'f']
  else if c = '\n' then ['\\', 'n']
  else if c = '\r' then ['\\', 'r']
  else if c = '\t' then ['\\', 't']
  else if c.toNat < 0x20 then '\\' :: 'u' :: Number.hexadecimal 4 c.toNat
  else [c]

def quote (text : String) : String :=
  String.ofList ('"' :: text.toList.flatMap escape ++ ['"'])

def quoteName (name : Option String) : String := quote (name.getD "")

mutual

def compact : Document → String
  | null => "null"
  | bool true => "true"
  | bool false => "false"
  | number literal => literal
  | text content => quoteName content
  | list items => "[" ++ ",".intercalate (compactItems items) ++ "]"
  | record members => "\x7b" ++ ",".intercalate (compactMembers members) ++ "\x7d"
  | broken => ""

def compactItems : List Document → List String
  | [] => []
  | item :: rest => compact item :: compactItems rest

def compactMembers : List (Option String × Document) → List String
  | [] => []
  | (name, value) :: rest => (quoteName name ++ ":" ++ compact value) :: compactMembers rest

end

def margin (depth : Nat) : String := "\n" ++ String.ofList (List.replicate (2 * depth) ' ')

def enclose (opening closing : String) (depth : Nat) (parts : List String) : String :=
  if parts.isEmpty then opening ++ closing
  else opening ++ margin (depth + 1) ++ ("," ++ margin (depth + 1)).intercalate parts ++
    margin depth ++ closing

mutual

def spread (depth : Nat) : Document → String
  | list items => enclose "[" "]" depth (spreadItems (depth + 1) items)
  | record members => enclose "\x7b" "\x7d" depth (spreadMembers (depth + 1) members)
  | null => "null"
  | bool true => "true"
  | bool false => "false"
  | number literal => literal
  | text content => quoteName content
  | broken => ""

def spreadItems (depth : Nat) : List Document → List String
  | [] => []
  | item :: rest => spread depth item :: spreadItems depth rest

def spreadMembers (depth : Nat) : List (Option String × Document) → List String
  | [] => []
  | (name, value) :: rest =>
    (quoteName name ++ ": " ++ spread depth value) :: spreadMembers depth rest

end

end Cartograph.Document

import Cartograph.Text.Pieces

/-! The parts of file names, whose directories are separated by slashes. -/

namespace Cartograph.FileName

def steps (name : String) : List String :=
  (Text.pieces (· = '/') name.toList).map String.ofList

def base? (name : String) : Option String :=
  ((steps name).filter fun step => step != "" && step != ".").getLast?.filter (· != "..")

/-- What follows the last dot; a dot at the very beginning does not count. -/
def extension? (name : String) : Option String := do
  let base ← base? name
  let (reversed, before) ← Text.splitFirst? '.' base.toList.reverse
  if before.isEmpty then none else some (String.ofList reversed.reverse)

/-- Drops slashes, and dots that are steps of their own, from the end of a reversed name. -/
def dropSlashes : List Char → List Char
  | '/' :: rest => dropSlashes rest
  | '.' :: '/' :: rest => dropSlashes rest
  | rest => rest

def parent (name : String) : String :=
  let reversed := dropSlashes ((dropSlashes name.toList.reverse).dropWhile (· ≠ '/'))
  if reversed.isEmpty && name.toList.head? == some '/' then "/"
  else String.ofList reversed.reverse

end Cartograph.FileName

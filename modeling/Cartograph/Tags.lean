import Cartograph.Number.Numeral
import Cartograph.Table
import Cartograph.Text.Pieces

/-! Numbers and lengths in tag values. Only finite numbers count, blanks around them do not. -/

namespace Cartograph.Tags

def finite? (text : List Char) : Option Float :=
  (Number.read? (Text.trim text)).filter (·.isFinite)

def number? (tags : Tags) (key : String) : Option Float :=
  (tags.get? key).bind fun value => finite? value.toList

/-- Metres in each unit. A longer name comes before a shorter one that it ends with. -/
def lengthUnits : List (String × Float) := [("km", 1000), ("mi", 1609.344), ("m", 1)]

def lengthIn? (value : List Char) (unit : String × Float) : Option Float := do
  let number ← Text.dropEnding? unit.1.toList value
  let x ← finite? number
  return x * unit.2

/-- A bare number is in metres. -/
def length? (tags : Tags) (key : String) : Option Float := do
  let value ← tags.get? key
  let value := Text.trim value.toList
  (finite? value).orElse fun _ => lengthUnits.findSome? (lengthIn? value)

end Cartograph.Tags

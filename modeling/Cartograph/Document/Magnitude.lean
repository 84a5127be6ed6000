import Cartograph.Number.Numeral
import Cartograph.Number.Binary

/-! The double that a number of a document stands for. Its leading digits are kept as long as they
make a whole number below `2 ^ 64`. One multiplication or division by a power of ten brings that
number to scale, so a result of more than fifteen digits may be off in the last place. -/

namespace Cartograph.Document

def gather (whole : Nat) : List Char → Nat × List Char
  | [] => (whole, [])
  | c :: rest =>
    let longer := 10 * whole + Number.Numeral.digitValue c
    if longer < Number.twoTo 64 then gather longer rest else (whole, c :: rest)

def powerOfTen (exponent : Nat) : Float := Float.ofScientific 1 false exponent

/-- A doubled division reaches the smallest numbers; beyond it nothing is left of any. -/
def scaled (whole : Nat) (exponent : Int) : Option Float :=
  let x := Float.ofNat whole
  if whole = 0 then some 0
  else if 308 < exponent then none
  else if 0 ≤ exponent then some (x * powerOfTen exponent.toNat)
  else if -308 ≤ exponent then some (x / powerOfTen (-exponent).toNat)
  else if -616 ≤ exponent then some (x / powerOfTen 308 / powerOfTen (-exponent - 308).toNat)
  else some 0

/-- Digits left over before the point still count as places, those behind it do not. -/
def magnitude? (literal : List Char) : Option Float :=
  let whole := literal.takeWhile Char.isDigit
  let (fraction, rest) := match literal.dropWhile Char.isDigit with
    | '.' :: rest => (rest.takeWhile Char.isDigit, rest.dropWhile Char.isDigit)
    | rest => ([], rest)
  let (kept, dropped) := gather 0 whole
  let (kept, unread) := gather kept fraction
  let places : Int := dropped.length + unread.length - fraction.length
  (Number.Numeral.exponent? rest).bind fun exponent => scaled kept (places + exponent)

/-- A number beyond the largest double has no value, one below the smallest is zero. -/
def real? (literal : List Char) : Option Float :=
  let value := match literal with
    | '-' :: rest => (magnitude? rest).map fun x => -x
    | rest => magnitude? rest
  value.filter Float.isFinite

end Cartograph.Document

/-! Decimal numbers as they are written: an optional sign, then digits with at most one
point and an optional exponent, or a word for infinity or no number in any case. Nothing
else may stand around them, blanks included. -/

namespace Cartograph.Number

inductive Numeral where
  | notANumber (negative : Bool)
  | infinite (negative : Bool)
  | finite (negative : Bool) (coefficient : Nat) (exponent : Int)
  deriving DecidableEq, Repr

namespace Numeral

def digitValue (c : Char) : Nat := c.toNat - '0'.toNat

def natural (digits : List Char) : Nat :=
  digits.foldl (fun value c => 10 * value + digitValue c) 0

def splitSign : List Char → Bool × List Char
  | '-' :: rest => (true, rest)
  | '+' :: rest => (false, rest)
  | rest => (false, rest)

def exponent? : List Char → Option Int
  | [] => some 0
  | mark :: rest =>
    if mark = 'e' ∨ mark = 'E' then
      let (negative, digits) := splitSign rest
      if digits ≠ [] ∧ digits.all Char.isDigit then
        some (if negative then -(natural digits : Int) else natural digits)
      else none
    else none

def magnitude? (negative : Bool) (text : List Char) : Option Numeral :=
  let whole := text.takeWhile Char.isDigit
  let (fraction, rest) := match text.dropWhile Char.isDigit with
    | '.' :: rest => (rest.takeWhile Char.isDigit, rest.dropWhile Char.isDigit)
    | rest => ([], rest)
  if whole = [] ∧ fraction = [] then none
  else (exponent? rest).map fun exponent =>
    .finite negative (natural (whole ++ fraction)) (exponent - fraction.length)

def word? (negative : Bool) (text : List Char) : Option Numeral :=
  match String.ofList (text.map Char.toLower) with
  | "nan" => some (.notANumber negative)
  | "inf" => some (.infinite negative)
  | "infinity" => some (.infinite negative)
  | _ => none

def read? (text : List Char) : Option Numeral :=
  let (negative, rest) := splitSign text
  (word? negative rest).orElse fun _ => magnitude? negative rest

def signed (negative : Bool) (x : Float) : Float := if negative then -x else x

def toFloat : Numeral → Float
  | .notANumber _ => 0 / 0
  | .infinite negative => signed negative (1 / 0)
  | .finite negative coefficient exponent =>
    signed negative (Float.ofScientific coefficient (exponent < 0) exponent.natAbs)

end Numeral

def read? (text : List Char) : Option Float := (Numeral.read? text).map Numeral.toFloat

end Cartograph.Number

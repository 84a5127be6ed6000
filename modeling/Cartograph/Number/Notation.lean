import Cartograph.Number.Shortest

/-! How numbers are written. A notation fixes what the shortest digits leave open: when an
exponent is written, whether whole numbers keep a `.0`, and the words for other values. -/

namespace Cartograph.Number

structure Notation where
  tie : Tie
  /-- Decimal exponents `low ≤ e < high` are written without an exponent mark; all, if absent. -/
  positional : Option (Int × Int)
  wholeMark : Bool
  exponentPlus : Bool
  notANumber : String
  infinite : String
  negativeInfinite : String

namespace Notation

def plain : Notation where
  tie := .up
  positional := none
  wholeMark := false
  exponentPlus := false
  notANumber := "NaN"
  infinite := "inf"
  negativeInfinite := "-inf"

def document : Notation where
  tie := .even
  positional := some (-5, 16)
  wholeMark := true
  exponentPlus := true
  notANumber := "null"
  infinite := "null"
  negativeInfinite := "null"

/-- Numbers in descriptions of a value, where a whole number is still seen to be a real. -/
def descriptive : Notation where
  tie := .up
  positional := some (-4, 16)
  wholeMark := true
  exponentPlus := false
  notANumber := "NaN"
  infinite := "inf"
  negativeInfinite := "-inf"

def zeros (count : Nat) : List Char := List.replicate count '0'

/-- The digits with the point set `exponent` places to the right of the last one. -/
def placePoint (wholeMark : Bool) (digits : List Char) (exponent : Int) : List Char :=
  if 0 ≤ exponent then
    digits ++ zeros exponent.toNat ++ (if wholeMark then ['.', '0'] else [])
  else
    let places := (-exponent).toNat
    if places < digits.length then
      digits.take (digits.length - places) ++ '.' :: digits.drop (digits.length - places)
    else
      '0' :: '.' :: (zeros (places - digits.length) ++ digits)

def scientific (exponentPlus : Bool) (digits : List Char) (exponent : Int) : List Char :=
  let sign := if exponent < 0 then ['-'] else if exponentPlus then ['+'] else []
  let fraction := match digits.drop 1 with
    | [] => []
    | rest => '.' :: rest
  digits.take 1 ++ fraction ++ 'e' :: sign ++ Nat.toDigits 10 exponent.natAbs

def writeDecimal (format : Notation) (decimal : Decimal) : List Char :=
  let digits := Nat.toDigits 10 decimal.digits
  let leading := decimal.exponent + digits.length - 1
  match format.positional with
  | none => placePoint format.wholeMark digits decimal.exponent
  | some (low, high) =>
    if decimal.digits = 0 ∨ (low ≤ leading ∧ leading < high) then
      placePoint format.wholeMark digits decimal.exponent
    else
      scientific format.exponentPlus digits leading

def writeBinary (format : Notation) (layout : Layout) : Binary → List Char
  | .notANumber => format.notANumber.toList
  | .infinite true => format.negativeInfinite.toList
  | .infinite false => format.infinite.toList
  | .finite negative mantissa exponent =>
    (if negative then ['-'] else []) ++
      format.writeDecimal (shortest layout format.tie mantissa exponent)

def write (format : Notation) (x : Float) : String :=
  String.ofList (format.writeBinary .double (ofDouble x))

end Notation

def text (x : Float) : String := Notation.plain.write x

def singleText (x : Float32) : String :=
  String.ofList (Notation.plain.writeBinary .single (ofSingle x))

def hexadecimal (width value : Nat) : List Char :=
  let digits := Nat.toDigits 16 value
  Notation.zeros (width - digits.length) ++ digits

end Cartograph.Number

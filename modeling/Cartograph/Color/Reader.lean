import Cartograph.Color.Basic
import Cartograph.Color.Keyword
import Cartograph.Number.Numeral
import Cartograph.Text.Pieces

/-! Reading colors: `#` with hexadecimal digits, the functions `rgb` and `hsl` with or without
alpha, and names. Blanks around a color are dropped; those inside are spaces, tabs and line
ends. Between the numbers of a function even a comma may be missing. -/

namespace Cartograph

namespace Number

/-- The remainder of a division by a whole number, with the sign of the dividend. It has no more
binary places than the dividend, so it is exact. -/
def remainder (x : Float) (divisor : Nat) : Float :=
  match ofDouble x with
  | .finite negative mantissa exponent =>
    let left :=
      if 0 ≤ exponent then mantissa * twoTo exponent.toNat % divisor
      else mantissa % (divisor * twoTo (-exponent).toNat)
    let place := min exponent 0
    let magnitude := if left = 0 then 0 else
      Float.ofModel (.pack (.round .binary64 .positive left place))
    if negative then -magnitude else magnitude
  | _ => 0 / 0

end Number

namespace Color

def isSpace (c : Char) : Bool := c = ' ' || c = '\t' || c = '\n' || c = '\r'

def skipSpaces (text : List Char) : List Char := text.dropWhile isSpace

def isNameCharacter (c : Char) : Bool := c.isAlphanum || c = '-' || c = '_'

def hexValue (c : Char) : Nat :=
  if c.isDigit then c.toNat - '0'.toNat else c.toLower.toNat - 'a'.toNat + 10

def isHex (c : Char) : Bool := c.isDigit || ('a' ≤ c.toLower && c.toLower ≤ 'f')

/-- A single digit stands for two equal ones. -/
def hexBytes? : List Nat → Option (Rgba Nat)
  | [r, g, b] => some ⟨17 * r, 17 * g, 17 * b, 255⟩
  | [r, g, b, a] => some ⟨17 * r, 17 * g, 17 * b, 17 * a⟩
  | [r, r', g, g', b, b'] => some ⟨16 * r + r', 16 * g + g', 16 * b + b', 255⟩
  | [r, r', g, g', b, b', a, a'] => some ⟨16 * r + r', 16 * g + g', 16 * b + b', 16 * a + a'⟩
  | _ => none

/-- The digits after an exponent mark; none are taken if `m` or `x` follows, which name units. -/
def exponentPart? : List Char → Option (List Char × List Char)
  | mark :: rest =>
    if mark = 'e' ∨ mark = 'E' then
      match rest with
      | [] => none
      | c :: more =>
        if c = 'm' ∨ c = 'x' then some ([], mark :: rest)
        else if c = '+' ∨ c = '-' then
          some (mark :: c :: more.takeWhile Char.isDigit, more.dropWhile Char.isDigit)
        else if c.isDigit then
          some (mark :: rest.takeWhile Char.isDigit, rest.dropWhile Char.isDigit)
        else none
    else some ([], mark :: rest)
  | [] => some ([], [])

def number? (text : List Char) : Option (Float × List Char) := do
  let text := skipSpaces text
  let (sign, unsigned) := match text with
    | '+' :: rest => (['+'], rest)
    | '-' :: rest => (['-'], rest)
    | rest => ([], rest)
  let whole := unsigned.takeWhile Char.isDigit
  let rest := unsigned.dropWhile Char.isDigit
  let (fraction, rest) := match rest with
    | '.' :: more => ('.' :: more.takeWhile Char.isDigit, more.dropWhile Char.isDigit)
    | rest => ([], rest)
  let (exponent, rest) ← exponentPart? rest
  let x ← Number.read? (sign ++ whole ++ fraction ++ exponent)
  if x.isFinite then some (x, rest) else none

/-- Spaces and at most one comma may follow a number. -/
def skipSeparator (text : List Char) : List Char :=
  match skipSpaces text with
  | ',' :: rest => rest
  | rest => rest

def listNumber? (text : List Char) : Option (Float × List Char) := do
  let (x, rest) ← number? text
  return (x, skipSeparator rest)

def fraction? (text : List Char) : Option (Float × List Char) := do
  match ← number? text with
  | (x, '%' :: rest) => return (x / 100, skipSeparator rest)
  | (x, rest) => return (x, skipSeparator rest)

def channelByte (x : Float) : Nat := Number.toByte (Number.round x)

def alphaByte? (text : List Char) : Option (Nat × List Char) :=
  match text with
  | ')' :: rest => some (255, ')' :: rest)
  | text => (listNumber? text).map fun (x, rest) => (channelByte (x * 255), rest)

def alpha? (text : List Char) : Option (Nat × List Char) := do
  let (alpha, rest) ← alphaByte? (skipSpaces text)
  match skipSpaces rest with
  | ')' :: rest => return (alpha, rest)
  | _ => none

/-- If the first number is a percentage, the others are fractions too. -/
def rgb? (text : List Char) : Option (Rgba Nat × List Char) := do
  let (first, rest) ← number? text
  match rest with
  | '%' :: rest =>
    let (green, rest) ← fraction? (skipSeparator rest)
    let (blue, rest) ← fraction? rest
    let (alpha, rest) ← alpha? rest
    return (⟨channelByte (first / 100 * 255), channelByte (green * 255),
      channelByte (blue * 255), alpha⟩, rest)
  | rest =>
    let (green, rest) ← listNumber? (skipSeparator rest)
    let (blue, rest) ← listNumber? rest
    let (alpha, rest) ← alpha? rest
    return (⟨channelByte first, channelByte green, channelByte blue, alpha⟩, rest)

def sixthByte (low high hue : Float32) : Nat :=
  let raised := if hue < 0 then hue + 6 else hue
  let hue := if 6 ≤ raised then raised - 6 else raised
  let value :=
    if hue < 1 then (high - low) * hue + low
    else if hue < 3 then high
    else if hue < 4 then (high - low) * (4 - hue) + low
    else low
  Number.singleToByte (Number.roundSingle (value * 255))

/-- Hues are counted in sixths of the circle, in single precision. -/
def hslBytes (hue saturation lightness : Float32) (alpha : Nat) : Rgba Nat :=
  let high :=
    if lightness ≤ 0.5 then lightness * (saturation + 1)
    else lightness + saturation - lightness * saturation
  let low := lightness * 2 - high
  ⟨sixthByte low high (hue + 2), sixthByte low high hue, sixthByte low high (hue - 2), alpha⟩

def hsl? (text : List Char) : Option (Rgba Nat × List Char) := do
  let (hue, rest) ← listNumber? text
  let (saturation, rest) ← fraction? rest
  let (lightness, rest) ← fraction? rest
  let (alpha, rest) ← alpha? rest
  let degrees := Number.remainder (Number.remainder hue 360 + 360) 360
  return (hslBytes (Number.toSingle degrees / 60) (Number.toSingle (clampUnit saturation))
    (Number.toSingle (clampUnit lightness)) alpha, rest)

def keyword? (name : String) : Option (Rgba Nat) :=
  if name = "transparent" then some ⟨0, 0, 0, 0⟩
  else (keywords.lookup name).map fun value =>
    ⟨value / 0x10000, value / 0x100 % 0x100, value % 0x100, 255⟩

def opened? : List Char → Option (List Char)
  | '(' :: rest => some rest
  | _ => none

def named? (text : List Char) : Option (Rgba Nat × List Char) :=
  let name := String.ofList ((text.takeWhile isNameCharacter).map Char.toLower)
  let rest := text.dropWhile isNameCharacter
  if name = "rgb" ∨ name = "rgba" then (opened? rest).bind rgb?
  else if name = "hsl" ∨ name = "hsla" then (opened? rest).bind hsl?
  else (keyword? name).map (·, rest)

def hash? (text : List Char) : Option (Rgba Nat × List Char) :=
  (hexBytes? ((text.takeWhile isHex).map hexValue)).map (·, text.dropWhile isHex)

def bytes? (text : List Char) : Option (Rgba Nat) := do
  let (bytes, rest) ← match skipSpaces text with
    | '#' :: rest => hash? rest
    | rest => named? rest
  if skipSpaces rest = [] then some bytes else none

def read? (text : String) : Option Color := (bytes? (Text.trim text.toList)).map ofBytes

end Color

end Cartograph

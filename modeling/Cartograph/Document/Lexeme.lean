import Cartograph.Document.Basic

/-! The lexemes of a document text: marks, scalars, and one for everything that is neither. -/

namespace Cartograph.Document

inductive Lexeme where
  | mark (c : Char)
  | scalar (value : Document)
  | unknown

/-- What the scanner is inside of. Letters, digits and code units come latest first. -/
inductive Scanner where
  | between
  | word (letters : List Char)
  | number (characters : List Char)
  | quote (units : List Nat)
  | escape (units : List Nat)
  | hexadecimal (units : List Nat) (digits value : Nat)

namespace Scanner

def isBlank (c : Char) : Bool := c = ' ' || c = '\t' || c = '\n' || c = '\r'

def isMark (c : Char) : Bool :=
  c = '\x7b' || c = '\x7d' || c = '[' || c = ']' || c = ',' || c = ':'

def isNumeric (c : Char) : Bool := c.isDigit || c = '-' || c = '+' || c = '.' || c = 'e' || c = 'E'

def hexDigit? (c : Char) : Option Nat :=
  if '0' ≤ c ∧ c ≤ '9' then some (c.toNat - '0'.toNat)
  else if 'a' ≤ c ∧ c ≤ 'f' then some (c.toNat - 'a'.toNat + 10)
  else if 'A' ≤ c ∧ c ≤ 'F' then some (c.toNat - 'A'.toNat + 10)
  else none

def isHighSurrogate (unit : Nat) : Bool := 0xD800 ≤ unit && unit < 0xDC00

def isLowSurrogate (unit : Nat) : Bool := 0xDC00 ≤ unit && unit < 0xE000

/-- Joins surrogate pairs; a half that stands alone spoils the text. -/
def join? : List Nat → Option (List Char)
  | [] => some []
  | high :: low :: rest =>
    if isHighSurrogate high then
      if isLowSurrogate low then
        (join? rest).map (Char.ofNat (0x10000 + (high - 0xD800) * 0x400 + (low - 0xDC00)) :: ·)
      else none
    else if isLowSurrogate high then none
    else (join? (low :: rest)).map (Char.ofNat high :: ·)
  | [unit] =>
    if isHighSurrogate unit || isLowSurrogate unit then none else some [Char.ofNat unit]

def quoted (units : List Nat) : Lexeme :=
  .scalar (.text ((join? units.reverse).map String.ofList))

def isDigits (text : List Char) : Bool := text ≠ [] && text.all Char.isDigit

def isExponent : List Char → Bool
  | [] => true
  | mark :: rest =>
    (mark = 'e' || mark = 'E') && isDigits (match rest with
      | '+' :: digits => digits
      | '-' :: digits => digits
      | digits => digits)

def isFraction : List Char → Bool
  | '.' :: rest =>
    isDigits (rest.takeWhile Char.isDigit) && isExponent (rest.dropWhile Char.isDigit)
  | rest => isExponent rest

/-- No digit may follow a leading zero. -/
def isNumber (text : List Char) : Bool :=
  let magnitude := match text with
    | '-' :: rest => rest
    | rest => rest
  match magnitude with
  | '0' :: rest => isFraction rest
  | rest => isDigits (rest.takeWhile Char.isDigit) && isFraction (rest.dropWhile Char.isDigit)

def numeric (characters : List Char) : Lexeme :=
  let text := characters.reverse
  if isNumber text then .scalar (.number (String.ofList text)) else .unknown

def named (letters : List Char) : Lexeme :=
  match String.ofList letters.reverse with
  | "null" => .scalar .null
  | "true" => .scalar (.bool true)
  | "false" => .scalar (.bool false)
  | _ => .unknown

def begin (c : Char) : List Lexeme × Scanner :=
  if isBlank c then ([], between)
  else if isMark c then ([.mark c], between)
  else if c = '"' then ([], quote [])
  else if c.isDigit || c = '-' then ([], number [c])
  else if c.isAlpha then ([], word [c])
  else ([.unknown], between)

def escaped? : Char → Option Nat
  | '"' => some 0x22
  | '\\' => some 0x5C
  | '/' => some 0x2F
  | 'b' => some 0x08
  | 'f' => some 0x0C
  | 'n' => some 0x0A
  | 'r' => some 0x0D
  | 't' => some 0x09
  | _ => none

/-- The lexemes that end with this character, and what the scanner is inside of after it. -/
def step (scanner : Scanner) (c : Char) : List Lexeme × Scanner :=
  match scanner with
  | between => begin c
  | word letters =>
    if c.isAlpha then ([], word (c :: letters))
    else
      let (lexemes, next) := begin c
      (named letters :: lexemes, next)
  | number characters =>
    if isNumeric c then ([], number (c :: characters))
    else
      let (lexemes, next) := begin c
      (numeric characters :: lexemes, next)
  | quote units =>
    if c = '"' then ([quoted units], between)
    else if c = '\\' then ([], escape units)
    else if c.toNat < 0x20 then ([.unknown], between)
    else ([], quote (c.toNat :: units))
  | escape units =>
    if c = 'u' then ([], hexadecimal units 0 0)
    else match escaped? c with
      | some unit => ([], quote (unit :: units))
      | none => ([.unknown], between)
  | hexadecimal units digits value =>
    match hexDigit? c with
    | some digit =>
      if digits = 3 then ([], quote ((16 * value + digit) :: units))
      else ([], hexadecimal units (digits + 1) (16 * value + digit))
    | none => ([.unknown], between)

def finish : Scanner → List Lexeme
  | between => []
  | word letters => [named letters]
  | number characters => [numeric characters]
  | quote _ | escape _ | hexadecimal _ _ _ => [.unknown]

def scan (scanner : Scanner) : List Char → List Lexeme
  | [] => scanner.finish
  | c :: rest =>
    let (lexemes, next) := scanner.step c
    lexemes ++ next.scan rest

end Scanner

def lexemes (text : List Char) : List Lexeme := Scanner.between.scan text

end Cartograph.Document

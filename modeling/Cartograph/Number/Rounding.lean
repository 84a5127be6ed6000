import Cartograph.Number.Binary

/-! Rounding to whole numbers, computed exactly on mantissa and exponent, the limits that keep a
number in a range, and the smaller and the larger of two numbers. -/

namespace Cartograph.Number

inductive Direction where
  | towardZero
  | awayFromZero
  /-- A half goes away from zero. -/
  | nearest
  /-- A half goes to the even number. -/
  | nearestEven

namespace Direction

def apply (direction : Direction) (mantissa : Nat) (exponent : Int) : Nat :=
  if 0 ≤ exponent then mantissa * twoTo exponent.toNat
  else
    let unit := twoTo (-exponent).toNat
    match direction with
    | towardZero => mantissa / unit
    | awayFromZero => (mantissa + unit - 1) / unit
    | nearest => (2 * mantissa + unit) / (2 * unit)
    | nearestEven =>
      let whole := mantissa / unit
      let rest := mantissa % unit
      if 2 * rest < unit then whole
      else if unit < 2 * rest then whole + 1
      else whole + whole % 2

end Direction

/-- A negative number is rounded up by cutting its fraction. -/
def ceilingDirection (negative : Bool) : Direction :=
  if negative then .towardZero else .awayFromZero

def floorDirection (negative : Bool) : Direction :=
  if negative then .awayFromZero else .towardZero

/-- A number of 53 bits or more has no fraction, so it is its own rounding. -/
def roundWith (direction : Bool → Direction) (x : Float) : Float :=
  match ofDouble x with
  | .finite negative mantissa exponent =>
    if 0 ≤ exponent then x
    else
      let whole := Float.ofNat ((direction negative).apply mantissa exponent)
      if negative then -whole else whole
  | _ => x

def round (x : Float) : Float := roundWith (fun _ => .nearest) x

def ceiling (x : Float) : Float := roundWith ceilingDirection x

def truncate (x : Float) : Float := roundWith (fun _ => .towardZero) x

def roundSingleWith (direction : Bool → Direction) (x : Float32) : Float32 :=
  match ofSingle x with
  | .finite negative mantissa exponent =>
    if 0 ≤ exponent then x
    else
      let whole := Float32.ofNat ((direction negative).apply mantissa exponent)
      if negative then -whole else whole
  | _ => x

def roundSingle (x : Float32) : Float32 := roundSingleWith (fun _ => .nearest) x

def roundSingleEven (x : Float32) : Float32 := roundSingleWith (fun _ => .nearestEven) x

def floorSingle (x : Float32) : Float32 := roundSingleWith floorDirection x

def ceilingSingle (x : Float32) : Float32 := roundSingleWith ceilingDirection x

/-- The whole part, kept between `low` and `high`; 0 for what is no number. -/
def wholePart (low high : Int) : Binary → Int
  | .notANumber => 0
  | .infinite true => low
  | .infinite false => high
  | .finite negative mantissa exponent =>
    let whole : Int := Direction.towardZero.apply mantissa exponent
    max low (min high (if negative then -whole else whole))

def toCell (x : Float) : Int := wholePart (-(twoTo 63 : Int)) ((twoTo 63 : Int) - 1) (ofDouble x)

def toCount (x : Float) : Nat := (wholePart 0 ((twoTo 64 : Int) - 1) (ofDouble x)).toNat

def toByte (x : Float) : Nat := (wholePart 0 255 (ofDouble x)).toNat

def singleToPixel (x : Float32) : Int :=
  wholePart (-(twoTo 31 : Int)) ((twoTo 31 : Int) - 1) (ofSingle x)

/-- What 32 bits with a sign keep of a whole number. -/
def word (n : Int) : Int := Int.bmod n (twoTo 32)

def singleToByte (x : Float32) : Nat := (wholePart 0 255 (ofSingle x)).toNat

def toSingle (x : Float) : Float32 :=
  match ofDouble x with
  | .notANumber => 0 / 0
  | .infinite negative => if negative then -1 / 0 else 1 / 0
  | .finite negative 0 _ => if negative then -0 else 0
  | .finite negative mantissa exponent =>
    let sign : Float.Model.UnpackedFloat.Sign := if negative then .negative else .positive
    Float32.ofModel (.pack (.round .binary32 sign mantissa exponent))

def toDouble (x : Float32) : Float :=
  match ofSingle x with
  | .notANumber => 0 / 0
  | .infinite negative => if negative then -1 / 0 else 1 / 0
  | .finite negative 0 _ => if negative then -0 else 0
  | .finite negative mantissa exponent =>
    let sign : Float.Model.UnpackedFloat.Sign := if negative then .negative else .positive
    Float.ofModel (.pack (.round .binary64 sign mantissa exponent))

def clamp (x low high : Float) : Float :=
  if x < low then low else if high < x then high else x

def positivePart (x : Float) : Float := if 0 < x then x else 0

section Extremes

variable {α : Type} [LT α] [DecidableLT α] [BEq α]

/-- A value that is not equal to itself gives way to the other; of two equal values the first
stays. -/
def least (x other : α) : α :=
  if x == x then (if other < x then other else x) else other

def greatest (x other : α) : α :=
  if x == x then (if x < other then other else x) else other

end Extremes

end Cartograph.Number

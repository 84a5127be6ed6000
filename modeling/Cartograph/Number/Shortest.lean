import Cartograph.Number.Binary

/-! The shortest decimal that reads back as a given binary number. The reals that round to
the number form an interval; the search takes the coarsest power of ten with a multiple in
that interval. If any multiple lies there, so does one of the two next to the number. -/

namespace Cartograph.Number

structure Decimal where
  digits : Nat
  exponent : Int
  deriving DecidableEq, Repr

inductive Tie where
  | up
  | even
  deriving DecidableEq, Repr

/-- The reals that round to `value`, all three ends over one common denominator. -/
structure Interval where
  low : Nat
  value : Nat
  high : Nat
  /-- The ends round to an even mantissa, so they belong to the interval. -/
  closed : Bool

namespace Interval

/-- Counted in quarters of the last binary place. Below a power of two the binary grid is
twice as fine, so the lower half step is only one quarter. -/
def around (layout : Layout) (mantissa : Nat) (exponent : Int) : Interval :=
  let finer := mantissa = twoTo layout.fractionBits ∧ layout.smallestExponent < exponent
  { low := if finer then 4 * mantissa - 1 else 4 * mantissa - 2
    value := 4 * mantissa
    high := 4 * mantissa + 2
    closed := mantissa % 2 == 0 }

def scale (interval : Interval) (factor : Nat) : Interval :=
  { interval with
    low := interval.low * factor
    value := interval.value * factor
    high := interval.high * factor }

def contains (interval : Interval) (x : Nat) : Bool :=
  if interval.closed then interval.low ≤ x && x ≤ interval.high
  else interval.low < x && x < interval.high

def nearest? (interval : Interval) (tie : Tie) (unit : Nat) : Option Nat :=
  let below := interval.value / unit
  let rest := interval.value % unit
  match interval.contains (below * unit), interval.contains ((below + 1) * unit) with
  | false, false => none
  | true, false => some below
  | false, true => some (below + 1)
  | true, true =>
    if 2 * rest < unit then some below
    else if unit < 2 * rest then some (below + 1)
    else match tie with
      | .up => some (below + 1)
      | .even => some (if below % 2 = 0 then below else below + 1)

def nearestAt? (interval : Interval) (tie : Tie) (denominator : Nat) (place : Int) : Option Nat :=
  if 0 ≤ place then interval.nearest? tie (denominator * tenTo place.toNat)
  else (interval.scale (tenTo (-place).toNat)).nearest? tie denominator

def coarsest (interval : Interval) (tie : Tie) (denominator : Nat) : Nat → Int → Decimal
  | 0, place => ⟨(interval.nearestAt? tie denominator place).getD 0, place⟩
  | steps + 1, place =>
    match interval.nearestAt? tie denominator place with
    | some digits => ⟨digits, place⟩
    | none => interval.coarsest tie denominator steps (place - 1)

end Interval

/-- A power of ten above every number with this many bits left of the binary point. -/
def decimalPlaceAbove (bits : Int) : Int := (bits + 1) * 30103 / 100000 + 1

/-- Seventeen digits tell any two doubles apart, so the search ends well within its steps. -/
def shortest (layout : Layout) (tie : Tie) (mantissa : Nat) (exponent : Int) : Decimal :=
  if mantissa = 0 then ⟨0, 0⟩
  else
    let interval := Interval.around layout mantissa exponent
    let quarter := exponent - 2
    let place := decimalPlaceAbove (mantissa.log2 + 1 + exponent)
    if 0 ≤ quarter then
      (interval.scale (twoTo quarter.toNat)).coarsest tie 1 24 place
    else
      interval.coarsest tie (twoTo (-quarter).toNat) 24 place

end Cartograph.Number

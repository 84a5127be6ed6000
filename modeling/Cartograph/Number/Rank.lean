import Cartograph.Number.Numeral
import Cartograph.Number.Binary

/-! The total order of floating-point patterns: negative patterns descend in magnitude,
positive ones ascend, and patterns that are no number stand beyond the infinities of their
sign. A rank is such a pattern, so that equal ranks are equal patterns. -/

namespace Cartograph.Number

structure Rank where
  bits : UInt64
  deriving DecidableEq, Repr, Inhabited

namespace Rank

def ofFloat (x : Float) : Rank := ⟨x.toBits⟩

def toFloat (rank : Rank) : Float := Float.ofBits rank.bits

def isNotANumber (rank : Rank) : Bool := rank.toFloat.isNaN

/-- The usual pattern of no number with a sign. It stands before all numbers. -/
def negativeNotANumber : Rank := ⟨0xFFF8000000000000⟩

/-- A sign written before the word for no number is kept. -/
def ofNumeral : Numeral → Rank
  | .notANumber true => negativeNotANumber
  | numeral => ofFloat numeral.toFloat

/-- The middle of two numbers. A pattern that is no number is kept, the first one of two, and
opposite infinities have no number with a sign as their middle. -/
def middle (a b : Rank) : Rank :=
  if a.isNotANumber then a
  else if b.isNotANumber then b
  else
    let value := (a.toFloat + b.toFloat) / 2
    if value.isNaN then negativeNotANumber else ofFloat value

def place (rank : Rank) : Int :=
  if rank.bits.toNat < twoTo 63 then rank.bits.toNat
  else (twoTo 63 : Int) - 1 - rank.bits.toNat

protected def compare (a b : Rank) : Ordering := Ord.compare a.place b.place

instance : Ord Rank := ⟨Rank.compare⟩

def compareAll : List Rank → List Rank → Ordering
  | a :: as, b :: bs => (compare a b).then (compareAll as bs)
  | _, _ => .eq

end Rank

end Cartograph.Number

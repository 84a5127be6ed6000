/-! The parts of a binary floating-point pattern. A finite number is a sign and the exact
value `mantissa * 2 ^ exponent`; every exact computation of the library starts from here. -/

namespace Cartograph.Number

abbrev twoTo (exponent : Nat) : Nat := Nat.pow 2 exponent

abbrev tenTo (exponent : Nat) : Nat := Nat.pow 10 exponent

inductive Binary where
  | notANumber
  | infinite (negative : Bool)
  /-- A zero has mantissa 0 and keeps its sign. -/
  | finite (negative : Bool) (mantissa : Nat) (exponent : Int)
  deriving DecidableEq, Repr

structure Layout where
  fractionBits : Nat
  exponentBits : Nat

namespace Layout

def double : Layout := ⟨52, 11⟩

def single : Layout := ⟨23, 8⟩

def smallestExponent (layout : Layout) : Int :=
  2 - (twoTo (layout.exponentBits - 1) : Int) - layout.fractionBits

def decode (layout : Layout) (bits : Nat) : Binary :=
  let fraction := bits % twoTo layout.fractionBits
  let biased := bits / twoTo layout.fractionBits % twoTo layout.exponentBits
  let negative := bits / twoTo (layout.fractionBits + layout.exponentBits) % 2 == 1
  if biased = twoTo layout.exponentBits - 1 then
    if fraction = 0 then .infinite negative else .notANumber
  else if biased = 0 then
    .finite negative fraction layout.smallestExponent
  else
    .finite negative (twoTo layout.fractionBits + fraction) (layout.smallestExponent + (biased - 1))

end Layout

def ofDouble (x : Float) : Binary := Layout.double.decode x.toBits.toNat

def ofSingle (x : Float32) : Binary := Layout.single.decode x.toBits.toNat

end Cartograph.Number

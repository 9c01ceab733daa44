/-!
Rounding a ratio of natural numbers to binary floating point. The nearest number
of the format is taken, and of two equally near ones the even one.
-/

namespace Mustache.Decimal

/-- A format by the bits of its fraction, the exponent of its least number, and the
exponent code of its infinity. -/
structure BinaryFormat where
  fractionBits : Nat
  leastExponent : Int
  infinityCode : Nat
  deriving DecidableEq, Repr

def binary64 : BinaryFormat := ⟨52, -1074, 2047⟩

def binary32 : BinaryFormat := ⟨23, -149, 255⟩

/-- The quotient rounded to the nearest integer, halves to the even one. -/
def roundHalfEven (numerator denominator : Nat) : Nat :=
  let quotient := numerator / denominator
  let remainder := numerator % denominator
  if 2 * remainder < denominator then quotient
  else if denominator < 2 * remainder then quotient + 1
  else quotient + quotient % 2

def scaleDown (numerator denominator : Nat) (power : Int) : Nat × Nat :=
  if 0 ≤ power then (numerator, denominator * Nat.pow 2 power.toNat)
  else (numerator * Nat.pow 2 (-power).toNat, denominator)

namespace BinaryFormat

/-- The exponent at which the ratio fills the significand, or the least one. -/
def exponentOf (format : BinaryFormat) (numerator denominator : Nat) : Int :=
  let guess := (numerator.log2 : Int) - denominator.log2 - format.fractionBits
  let scaled := scaleDown numerator denominator guess
  let full := if scaled.1 < Nat.pow 2 format.fractionBits * scaled.2 then guess - 1 else guess
  max full format.leastExponent

def nearestBits (format : BinaryFormat) (numerator denominator : Nat) : Nat :=
  if numerator = 0 then 0
  else
    let exponent := format.exponentOf numerator denominator
    let scaled := scaleDown numerator denominator exponent
    let significand := roundHalfEven scaled.1 scaled.2
    let hidden := Nat.pow 2 format.fractionBits
    let bits :=
      if significand < hidden then significand
      else (exponent - format.leastExponent).toNat * hidden + significand
    min bits (format.infinityCode * hidden)

end BinaryFormat

def nearestFloat (negative : Bool) (numerator denominator : Nat) : Float :=
  let bits := binary64.nearestBits numerator denominator
  Float.ofBits (UInt64.ofNat (if negative then bits + Nat.pow 2 63 else bits))

def nearestFloat32 (negative : Bool) (numerator denominator : Nat) : Float32 :=
  let bits := binary32.nearestBits numerator denominator
  Float32.ofBits (UInt32.ofNat (if negative then bits + Nat.pow 2 31 else bits))

def nearestOfInt (number : Int) : Float := nearestFloat (number < 0) number.natAbs 1

end Mustache.Decimal

/-!
The shortest decimal that reads back as a given double. Of the decimals with the
fewest digits the nearest is taken, and of two equally near ones the larger.
All arithmetic is exact, on natural numbers.
-/

namespace Mustache.Decimal

/-- The number `significand · 10 ^ power`. -/
structure Numeral where
  significand : Nat
  power : Int
  deriving DecidableEq, Repr

/-- A positive value with the two ends of the interval that rounds to it, all three over
one denominator. The ends belong to the interval if `closed`. -/
structure Interval where
  low : Nat
  value : Nat
  high : Nat
  denominator : Nat
  closed : Bool
  deriving DecidableEq, Repr

/-- The interval of the double `significand · 2 ^ exponent`; below a power of two the
neighbour is only half as far away, which `lowerStep` tells. -/
def Interval.ofBinary (significand : Nat) (exponent : Int) (lowerStep : Nat) : Interval :=
  let factor := Nat.pow 2 exponent.toNat
  { low := (4 * significand - lowerStep) * factor
    value := 4 * significand * factor
    high := (4 * significand + 2) * factor
    denominator := 4 * Nat.pow 2 (-exponent).toNat
    closed := significand % 2 == 0 }

def digitCount (number : Nat) : Nat := (Nat.toDigits 10 number).length

def Interval.leadingPower (interval : Interval) : Int :=
  if interval.denominator ≤ interval.value then
    (digitCount (interval.value / interval.denominator) : Int) - 1
  else -(digitCount ((interval.denominator - 1) / interval.value) : Int)

/-- The multiple of `10 ^ power` to take, if one next to the value lies in the interval. -/
def Interval.onGrid? (interval : Interval) (power : Int) : Option Nat :=
  let up := Nat.pow 10 (-power).toNat
  let unit := interval.denominator * Nat.pow 10 power.toNat
  let below := interval.value * up / unit
  let rest := interval.value * up % unit
  let fits (left right : Nat) : Bool := left < right || (interval.closed && left == right)
  let lower := fits (interval.low * up) (below * unit)
  let upper := fits ((below + 1) * unit) (interval.high * up)
  if lower && upper then some (if unit ≤ 2 * rest then below + 1 else below)
  else if lower then some below
  else if upper then some (below + 1)
  else none

def Interval.search (interval : Interval) : Nat → Int → Numeral
  | 0, power => ⟨interval.value * Nat.pow 10 (-power).toNat /
      (interval.denominator * Nat.pow 10 power.toNat), power⟩
  | count + 1, power =>
      match interval.onGrid? power with
      | some significand => ⟨significand, power⟩
      | none => interval.search count (power - 1)

/-- Seventeen digits tell all doubles apart. -/
def Interval.shortest (interval : Interval) : Numeral :=
  interval.search 17 interval.leadingPower

inductive FloatForm
  | nan
  | infinite (negative : Bool)
  | zero (negative : Bool)
  | finite (negative : Bool) (interval : Interval)
  deriving DecidableEq, Repr

def FloatForm.ofBits (bits : Nat) : FloatForm :=
  let negative : Bool := decide (Nat.pow 2 63 ≤ bits)
  let code : Nat := bits / Nat.pow 2 52 % Nat.pow 2 11
  let fraction : Nat := bits % Nat.pow 2 52
  if code = 2047 then if fraction = 0 then .infinite negative else .nan
  else if code = 0 then
    if fraction = 0 then .zero negative else .finite negative (.ofBinary fraction (-1074) 2)
  else
    .finite negative
      (.ofBinary (Nat.pow 2 52 + fraction) ((code : Int) - 1075)
        (if fraction = 0 ∧ 1 < code then 1 else 2))

def FloatForm.ofFloat (number : Float) : FloatForm := .ofBits number.toBits.toNat

end Mustache.Decimal

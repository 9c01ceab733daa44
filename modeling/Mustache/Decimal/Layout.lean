import Mustache.Decimal.Shortest

/-!
How decimals are written. A layout fixes which numbers are written with an exponent
and whether a whole number keeps a fraction digit; the digits are always the shortest.
-/

namespace Mustache.Decimal

/-- Numbers whose leading power of ten lies from `first` up to `last` are positional. -/
structure Positional where
  first : Int
  last : Int
  deriving DecidableEq, Repr

structure Layout where
  /-- Where positional notation ends; nowhere if absent. -/
  positional : Option Positional
  /-- Whether whole numbers end in `.0`. -/
  keepsFraction : Bool
  deriving DecidableEq, Repr

/-- Interpolated numbers are never written with an exponent. -/
def plainLayout : Layout := ⟨none, false⟩

def inspectedLayout : Layout := ⟨some ⟨-4, 15⟩, true⟩

def significantDigits (significand : Nat) : List Char :=
  ((Nat.toDigits 10 significand).reverse.dropWhile fun digit => digit == '0').reverse

def positionalText (digits : List Char) (leading : Int) (keepsFraction : Bool) : List Char :=
  if leading < 0 then
    ['0', '.'] ++ List.replicate (-leading - 1).toNat '0' ++ digits
  else
    let count := leading.toNat + 1
    if digits.length ≤ count then
      digits ++ List.replicate (count - digits.length) '0' ++
        (if keepsFraction then ['.', '0'] else [])
    else digits.take count ++ '.' :: digits.drop count

def exponentText (digits : List Char) (leading : Int) : List Char :=
  let mantissa :=
    match digits with
    | first :: second :: rest => first :: '.' :: second :: rest
    | short => short
  mantissa ++ 'e' :: (toString leading).toList

def Layout.magnitude (layout : Layout) (numeral : Numeral) : List Char :=
  let leading := numeral.power + digitCount numeral.significand - 1
  let digits := significantDigits numeral.significand
  match layout.positional with
  | none => positionalText digits leading layout.keepsFraction
  | some range =>
      if range.first ≤ leading ∧ leading ≤ range.last then
        positionalText digits leading layout.keepsFraction
      else exponentText digits leading

def Layout.signed (negative : Bool) (text : List Char) : String :=
  String.ofList (if negative then '-' :: text else text)

def Layout.text (layout : Layout) (number : Float) : String :=
  match FloatForm.ofFloat number with
  | .nan => "NaN"
  | .infinite negative => Layout.signed negative ['i', 'n', 'f']
  | .zero negative =>
      Layout.signed negative (if layout.keepsFraction then ['0', '.', '0'] else ['0'])
  | .finite negative interval => Layout.signed negative (layout.magnitude interval.shortest)

end Mustache.Decimal

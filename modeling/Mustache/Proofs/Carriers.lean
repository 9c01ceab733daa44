import Mustache.Proofs.EqualValues

/-!
Integers in their carriers. A number that fits one of the two integer forms of values is kept
exactly, whichever carrier it comes in, so that what it is put out as and what it is equal to
depend on the number alone. One case is missed: a signed carrier of 128 bits is compared with the
signed form only, and gives up numbers that the unsigned form has room for.
-/

namespace Mustache

namespace Integer

/-- The number is one of the signed or of the unsigned form. -/
def Fits (number : Integer) : Prop :=
  Int64.minValue.toInt ≤ number.toInt ∧ number.toInt < UInt64.size

/-- The carrier is the signed one of 128 bits, and the number is above the signed form. -/
def IsMissed : Integer → Prop
  | .int128 number => Int64.maxValue.toInt < number.toInt
  | _ => False

/-- The smaller carriers go into the form of their sign without a check. -/
theorem integer_of_word (number : Word) :
    (word number).convert.integer? = some number.toInt := by
  cases number <;> simp [convert, Value.integer?, Word.toInt]

theorem integer_of_uint128 {number : BitVec 128} (fits : number.toNat < UInt64.size) :
    (uint128 number).convert.integer? = some (number.toNat : Int) := by
  have kept : (UInt64.ofNat number.toNat).toNat = number.toNat := UInt64.toNat_ofNat_of_lt' fits
  simp only [convert, fits, if_true, Value.integer?, kept]

theorem integer_of_int128 {number : BitVec 128} (least : Int64.minValue.toInt ≤ number.toInt)
    (most : number.toInt ≤ Int64.maxValue.toInt) :
    (int128 number).convert.integer? = some number.toInt := by
  have kept : (Int64.ofInt number.toInt).toInt = number.toInt :=
    Int64.toInt_ofInt_of_le least (Int.lt_add_one_of_le most)
  simp only [convert, least, most, and_self, if_true, Value.integer?, kept]

theorem integer_of_fits {number : Integer} (fits : number.Fits) (taken : ¬ number.IsMissed) :
    number.convert.integer? = some number.toInt := by
  obtain ⟨least, most⟩ := fits
  cases number with
  | word number => exact integer_of_word number
  | uint128 number => exact integer_of_uint128 (Int.ofNat_lt.1 most)
  | int128 number => exact integer_of_int128 least (Int.not_lt.1 taken)

theorem float_of_missed {number : Integer} (missed : number.IsMissed) :
    number.convert = .float (Decimal.nearestOfInt number.toInt) := by
  cases number with
  | int128 number =>
      have outside : ¬ (Int64.minValue.toInt ≤ number.toInt ∧
          number.toInt ≤ Int64.maxValue.toInt) := fun inside => Int.not_le.2 missed inside.2
      simp only [convert, outside, if_false, toInt]
  | _ => cases missed

end Integer

namespace Value

variable {value other : Value} {number otherNumber : Int}

theorem essence_of_integer (found : value.integer? = some number) :
    value.FloatFree (fun _ => False) ∧ value.essence = .integer number := by
  cases value with
  | unsigned form =>
      cases Option.some.inj found
      exact ⟨.unsigned form, rfl⟩
  | signed form =>
      cases Option.some.inj found
      exact ⟨.signed form, rfl⟩
  | _ => cases found

/-- Integers are equal if their numbers are, in whatever form. -/
theorem agrees_iff_of_integers (found : value.integer? = some number)
    (otherFound : other.integer? = some otherNumber) :
    value.agrees other = true ↔ otherNumber = number := by
  obtain ⟨free, essence⟩ := essence_of_integer found
  obtain ⟨otherFree, otherEssence⟩ := essence_of_integer otherFound
  rw [agrees_iff_essence free otherFree, essence, otherEssence, Essence.integer.injEq, eq_comm]

end Value

theorem Data.integer_to_value (number : Integer) (registry : Registry) :
    (Data.integer number).toValue? registry = (.ok number.convert, registry) :=
  Conversion.apart_pure number.convert registry

/-- A number that fits becomes an integer value that denotes it, is put out as its numeral, and is
equal to the values of the same number in any other carrier and of no other number. Only in the
signed carrier of 128 bits the numbers above the signed form become the nearest float. -/
theorem fitting_integers_are_kept (registry : Registry) {number : Integer} (fits : number.Fits) :
    ∃ value, (Data.integer number).toValue? registry = (.ok value, registry) ∧
      (number.IsMissed ∧ value = .float (Decimal.nearestOfInt number.toInt) ∨
        ¬ number.IsMissed ∧ value.integer? = some number.toInt ∧
          value.display = toString number.toInt ∧
          ∀ other : Integer, other.Fits → ¬ other.IsMissed →
            ∃ otherValue, (Data.integer other).toValue? registry = (.ok otherValue, registry) ∧
              (value.agrees otherValue = true ↔ other.toInt = number.toInt)) := by
  refine ⟨_, Data.integer_to_value number registry, ?_⟩
  by_cases missed : number.IsMissed
  · exact .inl ⟨missed, Integer.float_of_missed missed⟩
  · have found := Integer.integer_of_fits fits missed
    refine .inr ⟨missed, found, (Value.numeral_of_integer found).display, ?_⟩
    intro other otherFits otherTaken
    have otherFound := Integer.integer_of_fits otherFits otherTaken
    exact ⟨_, Data.integer_to_value other registry, Value.agrees_iff_of_integers found otherFound⟩

/-- The largest number of the unsigned form, in an unsigned carrier that is wider than the form. -/
theorem largest_unsigned_number_is_kept :
    let number : Integer := .uint128 18446744073709551615
    number.Fits ∧
      ∃ value, (Data.integer number).toValue? (.start "") = (.ok value, .start "") ∧
        value.display = "18446744073709551615" ∧
        ∀ other : Integer, other.Fits → ¬ other.IsMissed →
          ∃ otherValue, (Data.integer other).toValue? (.start "") = (.ok otherValue, .start "") ∧
            (value.agrees otherValue = true ↔ other.toInt = 18446744073709551615) := by
  intro number
  have fits : number.Fits := ⟨by decide, by decide⟩
  obtain ⟨value, converts, missed | kept⟩ := fitting_integers_are_kept (.start "") fits
  · cases missed.1
  · exact ⟨fits, value, converts, kept.2.2.1, kept.2.2.2⟩

/-- The same number in the signed carrier of that width ends up as a float, and is put out with
other digits. -/
theorem signed_carrier_loses_digits :
    let number : Integer := .int128 18446744073709551615
    number.toInt = 18446744073709551615 ∧ number.Fits ∧
      ∃ value, (Data.integer number).toValue? (.start "") = (.ok value, .start "") ∧
        value.integer? = none ∧ value.display = "18446744073709552000" := by
  intro number
  refine ⟨by decide, ⟨by decide, by decide⟩, _, Data.integer_to_value number _, by decide, ?_⟩
  decide +kernel

end Mustache

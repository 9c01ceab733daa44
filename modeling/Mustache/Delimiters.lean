import Mustache.Fault
import Mustache.Text.Blank

/-!
The two delimiters between which tags stand. A delimiter holds at least one
character and no blank, so that it never meets the padding around a tag's text.
-/

namespace Mustache

structure Delimiter where
  chars : List Char
  nonempty : chars ≠ []
  solid : ∀ c ∈ chars, Text.isBlank c = false
  deriving DecidableEq

namespace Delimiter

def ofChars (chars : List Char) : Except Fault Delimiter :=
  if empty : chars = [] then .error .emptyDelimiter
  else if blank : chars.any Text.isBlank then .error (.blankInDelimiter (String.ofList chars))
  else .ok ⟨chars, empty, by simpa using blank⟩

def text (delimiter : Delimiter) : String := String.ofList delimiter.chars

theorem length_pos (delimiter : Delimiter) : 0 < delimiter.chars.length :=
  List.length_pos_iff.2 delimiter.nonempty

theorem of_chars_eq_ok_iff {chars : List Char} {delimiter : Delimiter} :
    ofChars chars = .ok delimiter ↔ delimiter.chars = chars := by
  constructor
  · intro made
    simp only [ofChars] at made
    split at made
    · contradiction
    · split at made
      · contradiction
      · cases made; rfl
  · rintro rfl
    rw [ofChars, dif_neg delimiter.nonempty, dif_neg (by simpa using delimiter.solid)]

end Delimiter

structure Delimiters where
  opener : Delimiter
  closer : Delimiter
  deriving DecidableEq

namespace Delimiters

/-- Of two unfit delimiters the opener is reported. -/
def ofChars (opener closer : List Char) : Except Fault Delimiters := do
  let opener ← Delimiter.ofChars opener
  let closer ← Delimiter.ofChars closer
  return ⟨opener, closer⟩

/-- The delimiters a text names: its first word, and all that follows the blanks behind it. -/
def ofWords (text : List Char) : Except Fault Delimiters :=
  ofChars (Text.firstWord text) (Text.afterFirstWord text)

def ofStrings (opener closer : String) : Except Error Delimiters :=
  (ofChars opener.toList closer.toList).mapError Fault.toError

def braces : Delimiters :=
  ⟨⟨['\x7b', '\x7b'], by simp, by simp [Text.isBlank, Text.blankCodes]⟩,
    ⟨['\x7d', '\x7d'], by simp, by simp [Text.isBlank, Text.blankCodes]⟩⟩

def inspected (delimiters : Delimiters) : String :=
  "Syntax(" ++ Text.quoted delimiters.opener.text ++ " " ++
    Text.quoted delimiters.closer.text ++ ")"

end Delimiters

end Mustache

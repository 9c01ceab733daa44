import Mustache.Error

/-!
What can be wrong with a template, and where. A fault knows its wording; an error
made of it also knows the template.
-/

namespace Mustache

def sectionLimit : Nat := 150

inductive Fault
  | unclosedTag (closer : String)
  | unopenedSection (name : String)
  | mismatchedSection (opened found : String)
  | unclosedSection (name : String)
  | sectionsTooDeep (name : String)
  | emptyDelimiter
  | blankInDelimiter (delimiter : String)
  deriving DecidableEq, Repr

namespace Fault

def ticked (text : String) : String := "\x60" ++ text ++ "\x60"

def kind : Fault → ErrorKind
  | .unclosedTag _ => .unclosedTag
  | .unopenedSection _ => .unopenedSection
  | .mismatchedSection _ _ => .mismatchedSection
  | .unclosedSection _ => .unclosedSection
  | .sectionsTooDeep _ => .nestingTooDeep
  | .emptyDelimiter | .blankInDelimiter _ => .invalidDelimiter

def detail : Fault → String
  | .unclosedTag closer => "expected " ++ ticked closer ++ " to close the tag"
  | .unopenedSection name => "section " ++ ticked name ++ " was never opened"
  | .mismatchedSection opened found =>
      "expected " ++ ticked opened ++ " to be closed, found " ++ ticked found
  | .unclosedSection name => "section " ++ ticked name ++ " is never closed"
  | .sectionsTooDeep name =>
      "section " ++ ticked name ++ " exceeds " ++ toString sectionLimit ++ " nested sections"
  | .emptyDelimiter => "delimiters cannot be empty"
  | .blankInDelimiter delimiter => "delimiter " ++ ticked delimiter ++ " contains whitespace"

def toError (fault : Fault) : Error := Error.ofDetail fault.kind fault.detail

end Fault

/-- A fault and the byte position it is reported at. -/
structure Located where
  fault : Fault
  offset : Nat
  deriving DecidableEq, Repr

def Located.toError (source : List Char) (located : Located) : Error :=
  located.fault.toError.located source located.offset

end Mustache

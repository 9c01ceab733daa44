import Mustache.Text.Quoted
import Mustache.Text.Line
import Mustache.Text.Width

/-!
Errors of the engine: a kind, optional detail, the place in the template, the lines
around that place, and the error underneath. Two errors agree when their kinds do.
-/

namespace Mustache

inductive ErrorKind
  | unclosedTag
  | unopenedSection
  | mismatchedSection
  | unclosedSection
  | invalidDelimiter
  | nestingTooDeep
  | recursionLimitExceeded
  | partialLoadFailure
  | writeFailure
  | badSerialization
  deriving DecidableEq, Repr

namespace ErrorKind

def all : List ErrorKind :=
  [.unclosedTag, .unopenedSection, .mismatchedSection, .unclosedSection, .invalidDelimiter,
    .nestingTooDeep, .recursionLimitExceeded, .partialLoadFailure, .writeFailure,
    .badSerialization]

def name : ErrorKind → String
  | .unclosedTag => "UnclosedTag"
  | .unopenedSection => "UnopenedSection"
  | .mismatchedSection => "MismatchedSection"
  | .unclosedSection => "UnclosedSection"
  | .invalidDelimiter => "InvalidDelimiter"
  | .nestingTooDeep => "NestingTooDeep"
  | .recursionLimitExceeded => "RecursionLimitExceeded"
  | .partialLoadFailure => "PartialLoadFailure"
  | .writeFailure => "WriteFailure"
  | .badSerialization => "BadSerialization"

def description : ErrorKind → String
  | .unclosedTag => "unclosed tag"
  | .unopenedSection => "unopened section"
  | .mismatchedSection => "mismatched section"
  | .unclosedSection => "unclosed section"
  | .invalidDelimiter => "invalid delimiter"
  | .nestingTooDeep => "sections nested too deeply"
  | .recursionLimitExceeded => "recursion limit exceeded"
  | .partialLoadFailure => "could not load partial"
  | .writeFailure => "failed to write output"
  | .badSerialization => "could not serialize to internal format"

def isCompileTime : ErrorKind → Bool
  | .unclosedTag | .unopenedSection | .mismatchedSection | .unclosedSection
  | .invalidDelimiter | .nestingTooDeep => true
  | .recursionLimitExceeded | .partialLoadFailure | .writeFailure | .badSerialization => false

def ofName? (name : String) : Option ErrorKind := all.find? fun kind => kind.name = name

end ErrorKind

/-- A place in a template: a byte position and the line it falls on, from one. -/
structure Location where
  offset : Nat
  line : Nat
  deriving DecidableEq, Repr

def Location.ofOffset (source : List Char) (offset : Nat) : Location :=
  ⟨offset, Text.lineAt offset source⟩

/-- An error underneath, by its message and its form for inspection. -/
structure Cause where
  message : String
  inspected : String
  deriving DecidableEq, Repr

structure Error where
  kind : ErrorKind
  detail : Option String := none
  location : Option Location := none
  cause : Option Cause := none
  /-- The template, kept to show the lines around the location. -/
  template : Option String := none
  deriving DecidableEq, Repr

namespace Error

def ofKind (kind : ErrorKind) : Error := { kind }

def ofDetail (kind : ErrorKind) (detail : String) : Error := { kind, detail := some detail }

def withCause (cause : Cause) (error : Error) : Error := { error with cause := some cause }

def located (source : List Char) (offset : Nat) (error : Error) : Error :=
  { error with
    location := some (Location.ofOffset source offset)
    template := some (String.ofList source) }

def formatting : Error := ofDetail .writeFailure "formatting failed"

def outputFull : Error :=
  (ofDetail .writeFailure "I/O error during rendering").withCause
    ⟨"no room left in the output", "NoRoom"⟩

def custom (message : String) : Error := ofDetail .badSerialization message

def agrees (left right : Error) : Bool := left.kind == right.kind

def message (error : Error) : String :=
  let head :=
    match error.detail with
    | some detail => error.kind.description ++ ": " ++ detail
    | none => error.kind.description
  match error.location with
  | some location =>
      head ++ " (at offset " ++ toString location.offset ++ ", line " ++
        toString location.line ++ ")"
  | none => head

def lineNumber (number : Nat) : String :=
  let digits := toString number
  String.ofList (List.replicate (4 - digits.length) ' ') ++ digits

def excerptLine (mark : String) (number : Nat) (line : List Char) : String :=
  lineNumber number ++ " " ++ mark ++ " " ++ String.ofList line ++ "\n"

/-- Numbered lines, each under the mark of its neighbours. -/
def neighbourLines : Nat → List (List Char) → String
  | _, [] => ""
  | number, line :: rest => excerptLine "|" number line ++ neighbourLines (number + 1) rest

/-- The line with the given number between up to three lines before and after it. -/
def excerpt (lines : List (List Char)) (number : Nat) : String :=
  let index := number - 1
  match lines[index]? with
  | none => ""
  | some line =>
      let first := index - 3
      neighbourLines (first + 1) ((lines.take index).drop first) ++
        excerptLine ">" number line ++
        neighbourLines (number + 1) ((lines.drop number).take 3)

def dashes (count : Nat) : String := String.ofList (List.replicate count '-')

def report (error : Error) : String :=
  match error.template with
  | none => error.message
  | some template =>
      let number := (error.location.map Location.line).getD 1
      error.message ++ "\n" ++ dashes 28 ++ " Template Source " ++ dashes 29 ++ "\n" ++
        excerpt (Text.lines template.toList) number ++ dashes 74

def inspected (error : Error) : String :=
  let fields : List String :=
    ["kind: " ++ error.kind.name] ++
    (error.detail.map fun detail => "detail: " ++ Text.quoted detail).toList ++
    (match error.location with
      | some location =>
          ["offset: " ++ toString location.offset, "line: " ++ toString location.line]
      | none => []) ++
    (error.cause.map fun cause => "source: " ++ cause.inspected).toList
  "Error \x7b " ++ String.intercalate ", " fields ++ " \x7d"

end Error

end Mustache

/-!
Escapes: what is written for the text of an interpolated value. An escape writes
pieces in order and may give up behind them.
-/

namespace Mustache

structure Escaped where
  pieces : List String
  gaveUp : Bool
  deriving DecidableEq, Repr

abbrev Escape := String → Escaped

namespace Escape

def entity? : Char → Option String
  | '&' => some "&amp;"
  | '<' => some "&lt;"
  | '>' => some "&gt;"
  | '\x22' => some "&quot;"
  | '\x27' => some "&#39;"
  | _ => none

/-- A run of characters, newest first, as a piece; an empty run is none. -/
def runPiece (run : List Char) : List String :=
  if run.isEmpty then [] else [String.ofList run.reverse]

/-- Entities, and the longest runs between them. -/
def htmlPieces (run : List Char) : List Char → List String
  | [] => runPiece run
  | c :: rest =>
      match entity? c with
      | some entity => runPiece run ++ entity :: htmlPieces [] rest
      | none => htmlPieces (c :: run) rest

def html : Escape := fun text => ⟨htmlPieces [] text.toList, false⟩

def verbatim : Escape := fun text => ⟨[text], false⟩

def written (escape : Escape) (text : String) : String := String.join (escape text).pieces

end Escape

end Mustache

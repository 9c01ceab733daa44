import Mustache.Text.Quoted

/-!
Tokens: the flat form of a template. A token has a kind, the text it carries and
the bytes it stands on.
-/

namespace Mustache

structure Span where
  first : Nat
  stop : Nat
  deriving DecidableEq, Repr

def Span.inspected (span : Span) : String :=
  " @ " ++ toString span.first ++ ".." ++ toString span.stop

inductive TokenKind
  | text
  | escaped
  | unescaped
  | opening
  | inverted
  | closing
  | inclusion
  | comment
  | delimiters
  deriving DecidableEq, Repr

namespace TokenKind

def name : TokenKind → String
  | .text => "Text"
  | .escaped => "Name"
  | .unescaped => "Unescaped"
  | .opening => "Section"
  | .inverted => "Inverted"
  | .closing => "Close"
  | .inclusion => "Partial"
  | .comment => "Comment"
  | .delimiters => "SetDelimiters"

def description : TokenKind → String
  | .text => "text"
  | .escaped => "variable"
  | .unescaped => "unescaped variable"
  | .opening => "section"
  | .inverted => "inverted section"
  | .closing => "section close"
  | .inclusion => "partial"
  | .comment => "comment"
  | .delimiters => "delimiter change"

/-- Whether a tag of this kind puts a value on its line. -/
def interpolates : TokenKind → Bool
  | .escaped | .unescaped => true
  | _ => false

end TokenKind

structure Token where
  kind : TokenKind
  value : String
  span : Span
  deriving DecidableEq, Repr

namespace Token

def inspected (token : Token) : String :=
  token.kind.name ++ "(" ++ Text.quoted token.value ++ ")" ++ token.span.inspected

def inspectedAll (tokens : List Token) : String :=
  "[" ++ String.intercalate ", " (tokens.map inspected) ++ "]"

end Token

end Mustache

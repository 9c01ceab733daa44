import Mustache.Balance

/-!
The tree of a template. A section holds the nodes up to its closing tag, of which
only the place remains.
-/

namespace Mustache

inductive Node
  | text (content : String) (span : Span)
  | escaped (name : String) (span : Span)
  | unescaped (name : String) (span : Span)
  | sectionOf (name : String) (children : List Node) (closing : Nat) (span : Span)
  | invertedOf (name : String) (children : List Node) (closing : Nat) (span : Span)
  | inclusion (name : String) (span : Span)
  | comment (content : String) (span : Span)
  | delimiters (content : String) (span : Span)
  deriving Repr

namespace Node

def span : Node → Span
  | .text _ span | .escaped _ span | .unescaped _ span => span
  | .sectionOf _ _ _ span | .invertedOf _ _ _ span => span
  | .inclusion _ span | .comment _ span | .delimiters _ span => span

def children : Node → List Node
  | .sectionOf _ children _ _ | .invertedOf _ children _ _ => children
  | _ => []

/-- A section keeps the span from its opening tag to the end of its closing tag. -/
def ofSection (opened closed : Token) (children : List Node) : Node :=
  let span : Span := ⟨opened.span.first, closed.span.stop⟩
  match opened.kind with
  | .inverted => .invertedOf opened.value children closed.span.first span
  | _ => .sectionOf opened.value children closed.span.first span

/-- A section whose closing tag is still to come: its opening tag, and the nodes before it,
newest first. -/
structure OpenNode where
  tag : Token
  before : List Node

/-- Folds the tokens that follow the nodes read so far, newest first. -/
def nestFrom (opened : List OpenNode) (done : List Node) :
    List Token → Except Fault (List Node)
  | [] =>
      match opened with
      | [] => .ok done.reverse
      | innermost :: _ => .error (.unclosedSection innermost.tag.value)
  | token :: rest =>
      match token.kind with
      | .opening | .inverted => nestFrom (⟨token, done⟩ :: opened) [] rest
      | .closing =>
          match opened with
          | [] => .error (.unopenedSection token.value)
          | innermost :: outer =>
              nestFrom outer (ofSection innermost.tag token done.reverse :: innermost.before) rest
      | .text => nestFrom opened (.text token.value token.span :: done) rest
      | .escaped => nestFrom opened (.escaped token.value token.span :: done) rest
      | .unescaped => nestFrom opened (.unescaped token.value token.span :: done) rest
      | .inclusion => nestFrom opened (.inclusion token.value token.span :: done) rest
      | .comment => nestFrom opened (.comment token.value token.span :: done) rest
      | .delimiters => nestFrom opened (.delimiters token.value token.span :: done) rest

def nest (tokens : List Token) : Except Fault (List Node) := nestFrom [] [] tokens

def ofSource (delimiters : Delimiters) (source : String) : Except Error (List Node) :=
  match Token.ofSource delimiters source with
  | .error error => .error error
  | .ok tokens => (nest tokens).mapError Fault.toError

def inspectedLeaf (wrapper kind field value : String) (span : Span) : String :=
  wrapper ++ "(" ++ kind ++ " \x7b " ++ field ++ ": " ++ Text.quoted value ++ " \x7d" ++
    span.inspected ++ ")"

def inspectedBlock (wrapper name children : String) (closing : Nat) (span : Span) : String :=
  wrapper ++ "(Section \x7b name: " ++ Text.quoted name ++ ", children: " ++ children ++
    ", section_end: " ++ toString closing ++ " \x7d" ++ span.inspected ++ ")"

mutual

def inspected : Node → String
  | .text content span => inspectedLeaf "Text" "Text" "text" content span
  | .escaped name span => inspectedLeaf "Var" "Var" "name" name span
  | .unescaped name span => inspectedLeaf "UnescapedVar" "Var" "name" name span
  | .sectionOf name children closing span =>
      inspectedBlock "Section" name (inspectedList children) closing span
  | .invertedOf name children closing span =>
      inspectedBlock "InvertedSection" name (inspectedList children) closing span
  | .inclusion name span => inspectedLeaf "Partial" "Partial" "name" name span
  | .comment content span => inspectedLeaf "Comment" "Comment" "text" content span
  | .delimiters content span =>
      inspectedLeaf "SetDelimiters" "SetDelimiters" "delimiters" content span

def inspectedList (nodes : List Node) : String :=
  "[" ++ String.intercalate ", " (inspectedEach nodes) ++ "]"

def inspectedEach : List Node → List String
  | [] => []
  | node :: rest => node.inspected :: inspectedEach rest

end

end Node

structure Template where
  source : String
  nodes : List Node

def Template.inspected (template : Template) : String :=
  "Template \x7b source: " ++ Text.quoted template.source ++ ", nodes: " ++
    Node.inspectedList template.nodes ++ " \x7d"

end Mustache

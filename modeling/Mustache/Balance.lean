import Mustache.Line

/-!
The balance of sections. Each section is closed by a tag of its own name before any
section around it, and no more than the permitted number is open at once. The first
tag that breaks this is the template's fault, before any fault further on.
-/

namespace Mustache

structure OpenSection where
  name : String
  offset : Nat
  deriving DecidableEq, Repr

/-- The sections open behind a token, innermost first. -/
def Token.shiftSections (opened : List OpenSection) (token : Token) :
    Except Located (List OpenSection) :=
  match token.kind with
  | .opening | .inverted =>
      if sectionLimit ≤ opened.length then
        .error ⟨.sectionsTooDeep token.value, token.span.first⟩
      else .ok (⟨token.value, token.span.first⟩ :: opened)
  | .closing =>
      match opened with
      | [] => .error ⟨.unopenedSection token.value, token.span.first⟩
      | innermost :: outer =>
          if innermost.name = token.value then .ok outer
          else .error ⟨.mismatchedSection innermost.name token.value, token.span.first⟩
  | _ => .ok opened

def sectionsBehind (opened : List OpenSection) : List Item → Except Located (List OpenSection)
  | [] => .ok opened
  | .char _ _ :: rest => sectionsBehind opened rest
  | .tag token :: rest =>
      match token.shiftSections opened with
      | .ok opened => sectionsBehind opened rest
      | .error located => .error located

def Reading.balanced (reading : Reading) : Except Located (List Item) :=
  match sectionsBehind [] reading.items, reading.fault with
  | .error located, _ => .error located
  | .ok _, some located => .error located
  | .ok [], none => .ok reading.items
  | .ok (innermost :: _), none =>
      .error ⟨.unclosedSection innermost.name, innermost.offset⟩

namespace Token

def ofText (delimiters : Delimiters) (text : List Char) : Except Located (List Token) :=
  (Reading.ofText delimiters 0 text).balanced.map fun items => ofItems (settleLines {} items)

def ofSource (delimiters : Delimiters) (source : String) : Except Error (List Token) :=
  (ofText delimiters source.toList).mapError (Located.toError source.toList)

end Token

end Mustache

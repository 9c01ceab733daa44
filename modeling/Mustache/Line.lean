import Mustache.Item

/-!
Standalone lines. A line is what stands up to a line feed of the text, line feeds
inside tags not counted. A line that holds tags, but no tag that puts out a value
and no text but blanks, gives up its blanks, the line feed among them. The last
line, which no line feed ends, keeps them.
-/

namespace Mustache

namespace Item

def isTag : Item → Bool
  | .tag _ => true
  | .char _ _ => false

/-- Whether the item makes its line one that keeps its blanks. -/
def isInk : Item → Bool
  | .tag token => token.kind.interpolates
  | .char _ c => !Text.isBlank c

def isLineFeed : Item → Bool
  | .char _ c => c = '\n'
  | .tag _ => false

end Item

/-- The line being read: its items, newest first, and what was seen on it. -/
structure OpenLine where
  items : List Item := []
  tagged : Bool := false
  inked : Bool := false
  deriving DecidableEq, Repr

namespace OpenLine

def add (line : OpenLine) (item : Item) : OpenLine :=
  { items := item :: line.items
    tagged := line.tagged || item.isTag
    inked := line.inked || item.isInk }

def finish (line : OpenLine) : List Item :=
  if line.tagged && !line.inked then (line.items.filter Item.isTag).reverse
  else line.items.reverse

end OpenLine

def settleLines (line : OpenLine) : List Item → List Item
  | [] => line.items.reverse
  | item :: rest =>
      if item.isLineFeed then (line.add item).finish ++ settleLines {} rest
      else settleLines (line.add item) rest

namespace Token

/-- Puts a character of text before the tokens; it joins a text token that comes first. -/
def consChar (offset : Nat) (c : Char) : List Token → List Token
  | ⟨.text, value, span⟩ :: rest =>
      ⟨.text, String.singleton c ++ value, ⟨offset, span.stop⟩⟩ :: rest
  | tokens => ⟨.text, String.singleton c, ⟨offset, offset + c.utf8Size⟩⟩ :: tokens

/-- The tokens of the items; characters with no tag between them make one text token. -/
def ofItems : List Item → List Token
  | [] => []
  | .tag token :: rest => token :: ofItems rest
  | .char offset c :: rest => consChar offset c (ofItems rest)

end Token

end Mustache

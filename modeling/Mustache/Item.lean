import Mustache.Tag
import Mustache.Text.Width

/-!
A template as a sequence of items: each character of text outside tags, and each
tag as a whole. Reading goes from left to right under the delimiters in force and
stops at the first tag that is not closed or names unfit delimiters.
-/

namespace Mustache

inductive Item
  | char (offset : Nat) (c : Char)
  | tag (token : Token)
  deriving DecidableEq, Repr

/-- The items read, and the fault that stopped the reading. -/
structure Reading where
  items : List Item
  fault : Option Located
  deriving DecidableEq, Repr

namespace Reading

def cons (item : Item) (reading : Reading) : Reading :=
  { reading with items := item :: reading.items }

def stoppedBy (fault : Fault) (offset : Nat) : Reading := ⟨[], some ⟨fault, offset⟩⟩

end Reading

def Tag.delimitersAfter (tag : Tag) (delimiters : Delimiters) : Except Fault Delimiters :=
  if tag.kind = .delimiters then Delimiters.ofWords tag.value else .ok delimiters

theorem Tag.rest_shorter {delimiters : Delimiters} {text behind : List Char} {tag : Tag}
    (opened : Text.after? delimiters.opener.chars text = some behind)
    (made : Tag.read delimiters.closer.chars behind = some tag) :
    tag.rest.length < text.length := by
  rw [Text.after_eq_some_iff.1 opened, List.length_append]
  have := Tag.read_length made
  have := delimiters.opener.length_pos
  omega

/-- Reads the text that starts at the byte position. A tag that is not closed is reported at
the end of the text, unfit delimiters where their tag starts. -/
def Reading.ofText (delimiters : Delimiters) (offset : Nat) (text : List Char) : Reading :=
  match text with
  | [] => ⟨[], none⟩
  | c :: rest =>
      match _opened : Text.after? delimiters.opener.chars (c :: rest) with
      | none => (Reading.ofText delimiters (offset + c.utf8Size) rest).cons (.char offset c)
      | some behind =>
          match _made : Tag.read delimiters.closer.chars behind with
          | none =>
              .stoppedBy (.unclosedTag delimiters.closer.text) (offset + Text.width (c :: rest))
          | some tag =>
              let stop := offset + (Text.width (c :: rest) - Text.width tag.rest)
              match tag.delimitersAfter delimiters with
              | .error fault => .stoppedBy fault offset
              | .ok delimiters =>
                  (Reading.ofText delimiters stop tag.rest).cons
                    (.tag ⟨tag.kind, String.ofList tag.value, ⟨offset, stop⟩⟩)
termination_by text.length
decreasing_by
  · simp
  · exact Tag.rest_shorter _opened _made

end Mustache

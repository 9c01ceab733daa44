import Mustache.Delimiters
import Mustache.Token
import Mustache.Text.Search

/-!
One tag, read from behind its opener. Blanks around the sigil and around the tag's
text do not count. A tag that is never closed is no tag.
-/

namespace Mustache

structure Tag where
  kind : TokenKind
  value : List Char
  rest : List Char
  deriving DecidableEq, Repr

namespace Tag

/-- The kind a character right behind the opener gives to a tag. Two forms of tag with a
closing mark of their own are not among these. -/
def kindOfSigil : Char → Option TokenKind
  | '#' => some .opening
  | '^' => some .inverted
  | '/' => some .closing
  | '>' => some .inclusion
  | '&' => some .unescaped
  | '!' => some .comment
  | _ => none

/-- A tag whose text ends before the given closing text. -/
def endingIn (kind : TokenKind) (closing body : List Char) : Option Tag :=
  (Text.cut? closing (Text.dropBlank body)).map fun pair => ⟨kind, Text.trimEnd pair.1, pair.2⟩

/-- A change of delimiters ends its text at an equals sign; what stands between that sign
and the closer is passed over. -/
def delimiterChange (closer body : List Char) : Option Tag :=
  match Text.cut? ['='] (Text.dropBlank body) with
  | none => none
  | some (value, afterMark) =>
      match Text.cut? closer afterMark with
      | none => none
      | some (_, rest) => some ⟨.delimiters, Text.trimEnd value, rest⟩

def read (closer : List Char) (text : List Char) : Option Tag :=
  match Text.dropBlank text with
  | [] => none
  | c :: body =>
      if c = '=' then delimiterChange closer body
      else if c = '\x7b' then endingIn .unescaped ('\x7d' :: closer) body
      else
        match kindOfSigil c with
        | some kind => endingIn kind closer body
        | none => endingIn .escaped closer (c :: body)

theorem ending_in_suffix {kind : TokenKind} {closing body : List Char} {tag : Tag}
    (made : endingIn kind closing body = some tag) : closing ++ tag.rest <:+ body := by
  simp only [endingIn, Option.map_eq_some_iff] at made
  obtain ⟨⟨before, rest⟩, found, rfl⟩ := made
  exact (Text.cut_suffix found).trans (List.dropWhile_suffix Text.isBlank)

theorem delimiter_change_suffix {closer body : List Char} {tag : Tag}
    (made : delimiterChange closer body = some tag) : closer ++ tag.rest <:+ body := by
  simp only [delimiterChange] at made
  split at made
  · contradiction
  next value afterMark marked =>
    split at made
    · contradiction
    next before rest closed =>
      cases made
      have behindMark := (List.suffix_append ['='] afterMark).trans (Text.cut_suffix marked)
      have closes := (Text.cut_suffix closed).trans behindMark
      exact closes.trans (List.dropWhile_suffix Text.isBlank)

/-- A tag ends with the closer, and nothing is put back behind it. -/
theorem read_suffix {closer text : List Char} {tag : Tag} (made : read closer text = some tag) :
    closer ++ tag.rest <:+ text := by
  have dropped : Text.dropBlank text <:+ text := List.dropWhile_suffix Text.isBlank
  simp only [read] at made
  split at made
  · contradiction
  next c body shape =>
    rw [shape] at dropped
    have behindSigil := (List.suffix_cons c body).trans dropped
    split at made
    · exact (delimiter_change_suffix made).trans behindSigil
    · split at made
      · have closes := (List.suffix_cons _ _).trans (ending_in_suffix made)
        exact closes.trans behindSigil
      · split at made
        · exact (ending_in_suffix made).trans behindSigil
        · exact (ending_in_suffix made).trans dropped

theorem read_length {closer text : List Char} {tag : Tag} (made : read closer text = some tag) :
    tag.rest.length ≤ text.length :=
  ((List.suffix_append closer tag.rest).trans (read_suffix made)).length_le

theorem ending_in_append {kind : TokenKind} {closing body : List Char} {tag : Tag}
    (nonempty : closing ≠ []) (made : endingIn kind closing body = some tag) (more : List Char) :
    endingIn kind closing (body ++ more) = some { tag with rest := tag.rest ++ more } := by
  simp only [endingIn, Option.map_eq_some_iff] at made ⊢
  obtain ⟨⟨before, rest⟩, found, rfl⟩ := made
  have solid := Text.cut_ne_nil nonempty found
  refine ⟨(before, rest ++ more), ?_, rfl⟩
  rw [Text.drop_blank_append solid]
  exact Text.cut_append_more found more

theorem delimiter_change_append {closer body : List Char} {tag : Tag}
    (made : delimiterChange closer body = some tag) (more : List Char) :
    delimiterChange closer (body ++ more) = some { tag with rest := tag.rest ++ more } := by
  simp only [delimiterChange] at made
  split at made
  · contradiction
  next value afterMark marked =>
    split at made
    · contradiction
    next before rest closed =>
      cases made
      have solid := Text.cut_ne_nil (by simp) marked
      simp only [delimiterChange, Text.drop_blank_append solid,
        Text.cut_append_more marked more, Text.cut_append_more closed more]

theorem read_append {closer text : List Char} {tag : Tag} (nonempty : closer ≠ [])
    (made : read closer text = some tag) (more : List Char) :
    read closer (text ++ more) = some { tag with rest := tag.rest ++ more } := by
  simp only [read] at made
  split at made
  · contradiction
  next c body shape =>
    have solid : Text.dropBlank text ≠ [] := by simp [shape]
    simp only [read, Text.drop_blank_append solid, shape, List.cons_append]
    split at made
    next change => simp only [if_pos change, delimiter_change_append made more]
    next same =>
      rw [if_neg same]
      split at made
      next brace =>
        rw [if_pos brace]
        exact ending_in_append (List.cons_ne_nil _ _) made more
      next plain =>
        rw [if_neg plain]
        split at made
        next kind _ =>
          exact ending_in_append nonempty made more
        next _ =>
          exact ending_in_append nonempty made more

end Tag

end Mustache

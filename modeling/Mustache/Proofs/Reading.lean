import Mathlib
import Mustache.Balance

/-!
What reading a text into items tells. The items stand on the text one behind the
other. A text read from a later position gives the same items further on. Behind a
finished line reading goes on as it would where a text begins, under the delimiters
that are in force there: no delimiter holds a line feed, so none stands across it.
-/

namespace Mustache

namespace Text

/-- Nothing of an open line stands at the end of the text. -/
def EndsLine (text : List Char) : Prop := text = [] ∨ ∃ body, text = body ++ ['\n']

theorem line_feed_of_ends_line {body : List Char} {last : Char}
    (ends : EndsLine (body ++ [last])) : last = '\n' := by
  rcases ends with empty | ⟨line, same⟩
  · simp at empty
  · have lasts := (List.append_inj' same rfl).2
    exact List.singleton_inj.1 lasts

theorem ends_line_suffix {text rest : List Char} (suffix : rest <:+ text)
    (ends : EndsLine text) : EndsLine rest := by
  obtain ⟨passed, rfl⟩ := suffix
  rcases List.eq_nil_or_concat rest with rfl | ⟨body, last, rfl⟩
  · exact Or.inl rfl
  · rw [List.concat_eq_append, ← List.append_assoc] at ends
    rw [List.concat_eq_append, line_feed_of_ends_line ends]
    exact Or.inr ⟨body, rfl⟩

end Text

theorem Delimiter.line_feed_not_mem (delimiter : Delimiter) : '\n' ∉ delimiter.chars := by
  intro member
  have solid := delimiter.solid '\n' member
  simp [Text.isBlank, Text.blankCodes] at solid

/-- A delimiter that does not begin in a finished line does not begin there either when more
text follows. -/
theorem Delimiter.after_ends_line (delimiter : Delimiter) {c : Char} {rest : List Char}
    (ends : Text.EndsLine (c :: rest))
    (missing : Text.after? delimiter.chars (c :: rest) = none) (more : List Char) :
    Text.after? delimiter.chars (c :: (rest ++ more)) = none := by
  rw [← List.cons_append]
  by_cases room : delimiter.chars.length ≤ (c :: rest).length
  · exact Text.after_append_none missing room more
  · cases found : Text.after? delimiter.chars ((c :: rest) ++ more) with
    | none => rfl
    | some suffix =>
        have whole := Text.after_eq_some_iff.1 found
        have inside : (c :: rest) <+: delimiter.chars :=
          List.prefix_of_prefix_length_le (List.prefix_append _ more) ⟨suffix, whole.symm⟩
            (by omega)
        rcases ends with empty | ⟨body, same⟩
        · exact absurd empty (List.cons_ne_nil c rest)
        · exact absurd (inside.subset (by simp [same])) delimiter.line_feed_not_mem

theorem Tag.body_between {delimiters : Delimiters} {text behind : List Char} {tag : Tag}
    (opened : Text.after? delimiters.opener.chars text = some behind)
    (made : Tag.read delimiters.closer.chars behind = some tag) :
    ∃ inner, text = (delimiters.opener.chars ++ inner ++ delimiters.closer.chars) ++ tag.rest := by
  obtain ⟨inner, same⟩ := Tag.read_suffix made
  refine ⟨inner, ?_⟩
  rw [Text.after_eq_some_iff.1 opened, ← same]
  simp only [List.append_assoc]

theorem Tag.ending_in_kind {kind : TokenKind} {closing body : List Char} {tag : Tag}
    (made : Tag.endingIn kind closing body = some tag) : tag.kind = kind := by
  simp only [Tag.endingIn, Option.map_eq_some_iff] at made
  obtain ⟨pair, _, rfl⟩ := made
  rfl

theorem Tag.read_kind_ne_text {closer text : List Char} {tag : Tag}
    (made : Tag.read closer text = some tag) : tag.kind ≠ .text := by
  simp only [Tag.read] at made
  split at made
  · contradiction
  next c body _ =>
    split at made
    · simp only [Tag.delimiterChange] at made
      split at made
      · contradiction
      · split at made
        · contradiction
        · cases made
          simp
    · split at made
      · simp [Tag.ending_in_kind made]
      · split at made
        next kind sigil =>
          rw [Tag.ending_in_kind made]
          rintro rfl
          simp only [Tag.kindOfSigil] at sigil
          split at sigil <;> simp at sigil
        · simp [Tag.ending_in_kind made]

namespace Reading

variable {delimiters after : Delimiters} {offset : Nat} {c : Char} {rest behind : List Char}
  {tag : Tag}

theorem of_text_cons :
    ofText delimiters offset (c :: rest) =
      match Text.after? delimiters.opener.chars (c :: rest) with
      | none => (ofText delimiters (offset + c.utf8Size) rest).cons (.char offset c)
      | some behind =>
          match Tag.read delimiters.closer.chars behind with
          | none =>
              stoppedBy (.unclosedTag delimiters.closer.text) (offset + Text.width (c :: rest))
          | some tag =>
              let stop := offset + (Text.width (c :: rest) - Text.width tag.rest)
              match tag.delimitersAfter delimiters with
              | .error fault => stoppedBy fault offset
              | .ok after =>
                  (ofText after stop tag.rest).cons
                    (.tag ⟨tag.kind, String.ofList tag.value, ⟨offset, stop⟩⟩) := by
  rw [ofText]
  split
  next apart => rw [apart]
  next behind opened =>
    rw [opened]
    split
    next unmade => simp only [unmade]
    next tag made => cases fit : tag.delimitersAfter delimiters <;> simp only [made, fit]

theorem of_text_char (apart : Text.after? delimiters.opener.chars (c :: rest) = none) :
    ofText delimiters offset (c :: rest) =
      (ofText delimiters (offset + c.utf8Size) rest).cons (.char offset c) := by
  rw [of_text_cons, apart]

theorem of_text_unclosed (opened : Text.after? delimiters.opener.chars (c :: rest) = some behind)
    (unmade : Tag.read delimiters.closer.chars behind = none) :
    ofText delimiters offset (c :: rest) =
      stoppedBy (.unclosedTag delimiters.closer.text) (offset + Text.width (c :: rest)) := by
  simp only [of_text_cons, opened, unmade]

theorem of_text_unfit {fault : Fault}
    (opened : Text.after? delimiters.opener.chars (c :: rest) = some behind)
    (made : Tag.read delimiters.closer.chars behind = some tag)
    (unfit : tag.delimitersAfter delimiters = .error fault) :
    ofText delimiters offset (c :: rest) = stoppedBy fault offset := by
  simp only [of_text_cons, opened, made, unfit]

theorem of_text_tag (opened : Text.after? delimiters.opener.chars (c :: rest) = some behind)
    (made : Tag.read delimiters.closer.chars behind = some tag)
    (fit : tag.delimitersAfter delimiters = .ok after) :
    ofText delimiters offset (c :: rest) =
      (ofText after (offset + (Text.width (c :: rest) - Text.width tag.rest)) tag.rest).cons
        (.tag ⟨tag.kind, String.ofList tag.value,
          ⟨offset, offset + (Text.width (c :: rest) - Text.width tag.rest)⟩⟩) := by
  simp only [of_text_cons, opened, made, fit]

end Reading

def Span.shift (distance : Nat) (span : Span) : Span :=
  ⟨span.first + distance, span.stop + distance⟩

def Token.shift (distance : Nat) (token : Token) : Token :=
  { token with span := token.span.shift distance }

def Located.shift (distance : Nat) (located : Located) : Located :=
  { located with offset := located.offset + distance }

namespace Item

/-- The items stand on the text from the byte position on, one behind the other and nothing in
between: a character as it is, a tag on the bytes of its span. -/
inductive Covers : Nat → List Char → List Item → Prop
  | nil {offset : Nat} : Covers offset [] []
  | char {offset : Nat} {c : Char} {rest : List Char} {items : List Item}
      (behind : Covers (offset + c.utf8Size) rest items) :
      Covers offset (c :: rest) (.char offset c :: items)
  | tag {offset : Nat} {body rest : List Char} {token : Token} {items : List Item}
      (nonempty : body ≠ []) (kind : token.kind ≠ .text)
      (span : token.span = ⟨offset, offset + Text.width body⟩)
      (behind : Covers (offset + Text.width body) rest items) :
      Covers offset (body ++ rest) (.tag token :: items)

def shift (distance : Nat) : Item → Item
  | .char offset c => .char (offset + distance) c
  | .tag token => .tag (token.shift distance)

def tag? : Item → Option Token
  | .tag token => some token
  | .char _ _ => none

end Item

namespace Reading

theorem of_text_covers (delimiters : Delimiters) (offset : Nat) (text : List Char)
    (whole : (ofText delimiters offset text).fault = none) :
    Item.Covers offset text (ofText delimiters offset text).items := by
  fun_induction ofText delimiters offset text with
  | case1 => exact .nil
  | case2 delimiters offset c rest apart ih => exact .char (ih whole)
  | case3 => simp [stoppedBy] at whole
  | case4 => simp [stoppedBy] at whole
  | case5 delimiters offset c rest behind opened tag made stop after fit ih =>
      obtain ⟨inner, same⟩ := Tag.body_between opened made
      generalize bounds : delimiters.opener.chars ++ inner ++ delimiters.closer.chars = body at same
      have nonempty : body ≠ [] := by simp [← bounds, delimiters.opener.nonempty]
      have width : Text.width (c :: rest) - Text.width tag.rest = Text.width body := by
        rw [same, Text.width_append]
        omega
      have stops : stop = offset + Text.width body := by rw [← width]
      have covered := ih whole
      rw [same, stops] at *
      exact .tag nonempty (Tag.read_kind_ne_text made) rfl covered

def shift (distance : Nat) (reading : Reading) : Reading :=
  ⟨reading.items.map (Item.shift distance), reading.fault.map (Located.shift distance)⟩

def behind (items : List Item) (reading : Reading) : Reading :=
  { reading with items := items ++ reading.items }

theorem of_text_shift (delimiters : Delimiters) (offset distance : Nat) (text : List Char) :
    ofText delimiters (offset + distance) text =
      (ofText delimiters offset text).shift distance := by
  fun_induction ofText delimiters offset text with
  | case1 => simp [ofText, shift]
  | case2 delimiters offset c rest apart ih =>
      rw [of_text_char apart, Nat.add_right_comm, ih]
      rfl
  | case3 delimiters offset c rest behind opened unmade =>
      rw [of_text_unclosed opened unmade, Nat.add_right_comm]
      rfl
  | case4 delimiters offset c rest behind opened tag made fault unfit =>
      rw [of_text_unfit opened made unfit]
      rfl
  | case5 delimiters offset c rest behind opened tag made stop after fit ih =>
      rw [of_text_tag opened made fit, Nat.add_right_comm, ih]
      rfl

end Reading

def Token.delimitersAfter (token : Token) (current : Delimiters) : Delimiters :=
  if token.kind = .delimiters then
    match Delimiters.ofWords token.value.toList with
    | .ok named => named
    | .error _ => current
  else current

/-- The delimiters in force behind tokens: those the last change among them names, and the
first ones where there is no change. -/
def Delimiters.behind (initial : Delimiters) (tokens : List Token) : Delimiters :=
  tokens.foldl (fun current token => token.delimitersAfter current) initial

theorem Tag.delimiters_after_token {tag : Tag} {delimiters after : Delimiters}
    (fit : tag.delimitersAfter delimiters = .ok after) (span : Span) :
    Token.delimitersAfter ⟨tag.kind, String.ofList tag.value, span⟩ delimiters = after := by
  simp only [Tag.delimitersAfter] at fit
  simp only [Token.delimitersAfter, String.toList_ofList]
  split at fit
  next change => rw [if_pos change, fit]
  next plain =>
    rw [if_neg plain]
    exact Except.ok.inj fit

namespace Reading

/-- Behind a finished line that reads without a fault, reading begins anew: no delimiter, tag or
blank of the line reaches over its end. -/
theorem of_text_append (delimiters : Delimiters) (offset : Nat) (text more : List Char)
    (ends : Text.EndsLine text) (whole : (ofText delimiters offset text).fault = none) :
    ofText delimiters offset (text ++ more) =
      (ofText (delimiters.behind ((ofText delimiters offset text).items.filterMap Item.tag?))
        (offset + Text.width text) more).behind (ofText delimiters offset text).items := by
  fun_induction ofText delimiters offset text with
  | case1 => rfl
  | case2 delimiters offset c rest apart ih =>
      have next := ih (Text.ends_line_suffix (List.suffix_cons c rest) ends) whole
      rw [List.cons_append, of_text_char (delimiters.opener.after_ends_line ends apart more), next,
        Nat.add_assoc]
      rfl
  | case3 => simp [stoppedBy] at whole
  | case4 => simp [stoppedBy] at whole
  | case5 delimiters offset c rest passed opened tag made stop after fit ih =>
      obtain ⟨inner, same⟩ := Tag.body_between opened made
      have next := ih (Text.ends_line_suffix ⟨_, same.symm⟩ ends) whole
      have opens := Text.after_append opened more
      have closes := Tag.read_append delimiters.closer.nonempty made more
      have width : Text.width (c :: (rest ++ more)) - Text.width (tag.rest ++ more) =
          Text.width (c :: rest) - Text.width tag.rest := by
        rw [← List.cons_append, Text.width_append, Text.width_append]
        omega
      have stops : stop + Text.width tag.rest = offset + Text.width (c :: rest) := by
        have shorter : Text.width tag.rest ≤ Text.width (c :: rest) := by
          rw [same, Text.width_append]
          omega
        omega
      rw [List.cons_append] at opens ⊢
      rw [of_text_tag opens closes fit]
      simp only [width]
      rw [next, stops]
      simp only [Reading.cons, Reading.behind, Delimiters.behind, Item.tag?, List.filterMap_cons,
        List.foldl_cons, Tag.delimiters_after_token fit, List.cons_append]
      rfl

/-- A reading is balanced when nothing stopped it and every section in it is closed. -/
theorem balanced_eq_ok_iff {reading : Reading} {items : List Item} :
    reading.balanced = .ok items ↔ reading = ⟨items, none⟩ ∧ sectionsBehind [] items = .ok [] := by
  obtain ⟨read, fault⟩ := reading
  constructor
  · intro balanced
    simp only [Reading.balanced] at balanced
    split at balanced
    next => contradiction
    next => contradiction
    next closed =>
      obtain rfl := Except.ok.inj balanced
      exact ⟨rfl, closed⟩
    next => contradiction
  · rintro ⟨same, closed⟩
    obtain ⟨rfl, rfl⟩ := Reading.mk.inj same
    simp only [Reading.balanced, closed]

end Reading

theorem Token.of_text_eq_ok_iff {delimiters : Delimiters} {text : List Char}
    {tokens : List Token} :
    Token.ofText delimiters text = .ok tokens ↔
      ∃ items, Reading.ofText delimiters 0 text = ⟨items, none⟩ ∧
        sectionsBehind [] items = .ok [] ∧
        tokens = Token.ofItems (settleLines {} items) := by
  simp only [Token.ofText]
  cases balanced : (Reading.ofText delimiters 0 text).balanced with
  | error located =>
      simp only [Except.map, reduceCtorEq, false_iff, not_exists, not_and]
      intro items read closed
      rw [Reading.balanced_eq_ok_iff.2 ⟨read, closed⟩] at balanced
      contradiction
  | ok items =>
      obtain ⟨read, closed⟩ := Reading.balanced_eq_ok_iff.1 balanced
      simp only [Except.map, Except.ok.injEq]
      constructor
      · rintro rfl
        exact ⟨items, read, closed, rfl⟩
      · rintro ⟨others, readOthers, _, rfl⟩
        rw [read] at readOthers
        rw [(Reading.mk.inj readOthers).1]

end Mustache

import Mustache.Proofs.Acceptance

/-!
Faults that last. What is wrong with a tag, or with the order of sections up to a tag, is seen
when the tag has been read, and no text behind the tag is looked at before that. So a template
that begins with such a fault has it, at the same place, however it goes on. A tag or a section
that is never closed is another matter: what follows may close it.
-/

namespace Mustache

namespace Text

theorem line_feeds_before_inside {position : Nat} {text : List Char}
    (inside : position ≤ width text) (more : List Char) :
    lineFeedsBefore position (text ++ more) = lineFeedsBefore position text := by
  induction text generalizing position with
  | nil =>
      obtain rfl : position = 0 := Nat.le_zero.1 inside
      cases more <;> rfl
  | cons c rest ih =>
      rw [width] at inside
      rw [List.cons_append, lineFeedsBefore, lineFeedsBefore, ih (by omega)]

end Text

namespace Place

variable {place first last : Place} {tag : Tag} {tags : List Token}

/-- The place in a template that goes on with more text. -/
def extended (more : List Char) (place : Place) : Place :=
  { place with text := place.text ++ more }

def Opens (place : Place) : Prop := place.delimiters.opener.chars <+: place.text

theorem Holds.opened (holds : place.Holds tag) : place.Opens := by
  obtain ⟨behind, opened, _⟩ := holds
  exact ⟨behind, opened.symm⟩

theorem Holds.extended (holds : place.Holds tag) (more : List Char) :
    (place.extended more).Holds { tag with rest := tag.rest ++ more } := by
  obtain ⟨behind, opened, stands⟩ := holds
  have made := Tag.read_eq_some_iff.2 stands
  refine ⟨behind ++ more, ?_, ?_⟩
  · simp only [Place.extended, opened, List.append_assoc]
  · exact Tag.stands_of_read (Tag.read_append place.delimiters.closer.nonempty made more)

theorem token_extended (place : Place) (tag : Tag) (more : List Char) :
    (place.extended more).token { tag with rest := tag.rest ++ more } = place.token tag := by
  have sameWidth : Text.width (place.text ++ more) - Text.width (tag.rest ++ more) =
      Text.width place.text - Text.width tag.rest := by
    rw [Text.width_append, Text.width_append]
    omega
  simp only [token, extended, sameWidth]

theorem behind_extended (place : Place) (tag : Tag) (after : Delimiters) (more : List Char) :
    (place.extended more).behind { tag with rest := tag.rest ++ more } after =
      (place.behind tag after).extended more := by
  simp only [behind, token_extended]
  rfl

/-- Where an opener is still to come, there is room for an opener. -/
theorem Reaches.room (reaches : Reaches first tags last) (opens : last.Opens) :
    first.delimiters.opener.chars.length ≤ first.text.length := by
  induction reaches with
  | here place => exact opens.length_le
  | char _ _ ih => exact (ih opens).trans (Nat.le_succ _)
  | tag holds _ _ _ => exact holds.opened.length_le

/-- More text behind an opener changes nothing of the way to it. -/
theorem Reaches.extended (reaches : Reaches first tags last) (opens : last.Opens)
    (more : List Char) : Reaches (first.extended more) tags (last.extended more) := by
  induction reaches with
  | here place => exact .here _
  | @char delimiters offset c rest tags last apart on ih =>
      have room := (Reaches.char apart on).room opens
      refine .char ?_ (ih opens)
      intro opened
      have inside := List.prefix_append (c :: rest) more
      exact apart (List.prefix_of_prefix_length_le opened inside room)
  | @tag place last tag after tags holds force _ ih =>
      have goesOn := ih opens
      rw [← behind_extended] at goesOn
      have reached := Reaches.tag (holds.extended more) force goesOn
      rwa [token_extended] at reached

theorem Reaches.width (reaches : Reaches first tags last) :
    last.offset + Text.width last.text = first.offset + Text.width first.text := by
  induction reaches with
  | here place => rfl
  | char _ _ ih => rw [ih, Text.width, Nat.add_assoc]
  | @tag place last tag after tags holds _ _ ih =>
      obtain ⟨behind, opened, stands⟩ := holds
      obtain ⟨inner, closed⟩ := Tag.read_suffix (Tag.read_eq_some_iff.2 stands)
      have fits : Text.width tag.rest ≤ Text.width place.text := by
        simp only [opened, ← closed, Text.width_append]
        omega
      rw [ih]
      simp only [Place.behind, Place.token]
      omega

end Place

/-- The kinds of faults that nothing behind them mends. -/
def lastingKinds : List ErrorKind :=
  [.unopenedSection, .mismatchedSection, .nestingTooDeep, .invalidDelimiter]

/-- Such a fault lies within the text, and is the first of every text that begins with this. -/
theorem FirstFault.lasts {delimiters : Delimiters} {text : List Char} {located : Located}
    (fault : FirstFault delimiters text located) (lasting : located.fault.kind ∈ lastingKinds)
    (more : List Char) :
    located.offset ≤ Text.width text ∧ FirstFault delimiters (text ++ more) located := by
  have within {place : Place} {tags : List Token}
      (reaches : Place.Reaches (.start delimiters text) tags place) :
      place.offset ≤ Text.width text := by
    have width := reaches.width
    simp only [Place.start] at width
    omega
  cases fault with
  | stopped reaches leaves stops =>
      cases stops with
      | unclosed => simp [lastingKinds, Fault.kind] at lasting
      | unfit holds change unnamed =>
          refine ⟨within reaches, .stopped (reaches.extended holds.opened more) leaves ?_⟩
          exact .unfit (holds.extended more) change unnamed
  | @broken tags place tag opened _ reaches leaves holds breaks =>
      have sameToken := place.token_extended tag more
      refine ⟨?_, .broken (reaches.extended holds.opened more) leaves (holds.extended more) ?_⟩
      · cases breaks <;> exact within reaches
      · rwa [sameToken]
  | unclosed => simp [lastingKinds, Fault.kind] at lasting

/-- What is reported of a tag that is out of order, or that names no delimiters, is reported of
every template that begins in this way. Only the template kept with the error is the longer one:
the kind, the wording and the place of the fault are the same. -/
theorem lasting_faults_are_reported_again (initial : Delimiters) (first second : String)
    {error : Error} (failed : Token.ofSource initial first = .error error)
    (lasting : error.kind ∈ lastingKinds) :
    Token.ofSource initial (first ++ second) =
      .error { error with template := some (first ++ second) } := by
  cases made : Token.ofText initial first.toList with
  | ok tokens =>
      simp only [Token.ofSource, made] at failed
      contradiction
  | error located =>
      simp only [Token.ofSource, made, Except.mapError, Except.error.injEq] at failed
      subst failed
      obtain ⟨inside, fault⟩ := (Token.first_fault_of_text made).lasts lasting second.toList
      have failedAgain := Token.of_text_of_first_fault fault
      have sameLine := Text.line_feeds_before_inside inside second.toList
      rw [← String.toList_append] at failedAgain sameLine
      simp only [Token.ofSource, failedAgain, Except.mapError, Located.toError, Error.located,
        Location.ofOffset, Text.lineAt, sameLine, String.ofList_toList]

/-- The first text ends in the midst of an opener and behind a tag that is out of order. -/
theorem mismatched_section_is_reported_again :
    let first := "\n\x7b\x7b#a\x7d\x7d\x7b\x7b/b\x7d\x7d \x7b"
    let second := "\x7ba\x7d\x7d\x7b\x7b/a\x7d\x7d"
    let error : Error :=
      { kind := .mismatchedSection,
        detail := some "expected \x60a\x60 to be closed, found \x60b\x60",
        location := some ⟨7, 2⟩, template := some first }
    Token.ofSource .braces first = .error error ∧ error.kind ∈ lastingKinds ∧
      Token.ofSource .braces (first ++ second) =
        .error { error with template := some (first ++ second) } := by
  intro first second error
  have failed : Token.ofSource .braces first = .error error := by cbv
  have lasting : error.kind ∈ lastingKinds := by decide
  exact ⟨failed, lasting, lasting_faults_are_reported_again .braces first second failed lasting⟩

end Mustache

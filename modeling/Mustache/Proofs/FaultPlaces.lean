import Mustache.Proofs.Scanning

/-!
Where the error of a template is said to be. It is always between two characters, on the line with
as many line feeds before it. A tag that is never closed is reported at the end of the source; of
all else the place is where a tag starts, with the opener in force there: the tag that is wrong, or
the one that opened the innermost section that is left open.
-/

namespace Mustache

namespace Place

variable {first last : Place} {tags : List Token}

/-- The delimiters at a place are those the last change before it put in force. -/
theorem Reaches.delimiters_behind (reaches : Reaches first tags last) :
    last.delimiters = first.delimiters.behind tags := by
  induction reaches with
  | here place => rfl
  | char _ _ ih => exact ih
  | @tag place last tag after tags _ force _ ih =>
      have fit := Tag.delimiters_after_eq_ok_iff.2 force
      rw [ih, Delimiters.behind, Delimiters.behind, List.foldl_cons, Place.token,
        Tag.delimiters_after_token fit]
      rfl

/-- The tag starts at the byte position of the text, with the opener then in force. Reading comes to
it over the tags before it, which leave these sections open. -/
structure StartsAt (initial : Delimiters) (text : List Char) (offset : Nat) (tags : List Token)
    (opened : List OpenSection) (place : Place) (tag : Tag) : Prop where
  reaches : Reaches (.start initial text) tags place
  leaves : LeavesOpen tags opened
  holds : place.Holds tag
  passed : ∃ passed, text = passed ++ place.text ∧ Text.width passed = offset
  opens : place.delimiters.opener.chars <+: place.text
  force : place.delimiters = initial.behind tags
  same : place.offset = offset

theorem Reaches.starts_at {initial : Delimiters} {text : List Char} {opened : List OpenSection}
    {place : Place} {tag : Tag} (reaches : Reaches (.start initial text) tags place)
    (leaves : LeavesOpen tags opened) (holds : place.Holds tag) :
    StartsAt initial text place.offset tags opened place tag where
  reaches := reaches
  leaves := leaves
  holds := holds
  passed := by
    obtain ⟨passed, same, offset⟩ := reaches.passed
    exact ⟨passed, same, by simpa [start] using offset.symm⟩
  opens := by
    obtain ⟨behind, opened, _⟩ := holds
    exact ⟨behind, opened.symm⟩
  force := reaches.delimiters_behind
  same := rfl

end Place

/-- What is wrong at the byte position of a source, by the kind of the error. -/
inductive WrongAt (initial : Delimiters) (source : String) (offset : Nat) :
    ErrorKind → String → Prop
  | unclosedTag {detail : String} (ended : offset = source.utf8ByteSize) :
      WrongAt initial source offset .unclosedTag detail
  | unopenedSection {detail : String} {tags : List Token} {place : Place} {tag : Tag}
      (starts : Place.StartsAt initial source.toList offset tags [] place tag)
      (closes : tag.kind = .closing) : WrongAt initial source offset .unopenedSection detail
  | mismatchedSection {detail : String} {tags : List Token} {innermost : OpenSection}
      {outer : List OpenSection} {place : Place} {tag : Tag}
      (starts : Place.StartsAt initial source.toList offset tags (innermost :: outer) place tag)
      (closes : tag.kind = .closing) (other : innermost.name ≠ String.ofList tag.value) :
      WrongAt initial source offset .mismatchedSection detail
  | nestingTooDeep {detail : String} {tags : List Token} {opened : List OpenSection} {place : Place}
      {tag : Tag} (starts : Place.StartsAt initial source.toList offset tags opened place tag)
      (opens : tag.kind.opens = true) (full : opened.length = sectionLimit) :
      WrongAt initial source offset .nestingTooDeep detail
  | invalidDelimiter {detail : String} {tags : List Token} {opened : List OpenSection}
      {place : Place} {tag : Tag}
      (starts : Place.StartsAt initial source.toList offset tags opened place tag)
      (change : tag.kind = .delimiters) (other : (Text.words tag.value).length ≠ 2) :
      WrongAt initial source offset .invalidDelimiter detail
  | unclosedSection {tags inside : List Token} {outer : List OpenSection} {place last : Place}
      {tag : Tag} (starts : Place.StartsAt initial source.toList offset tags outer place tag)
      (opens : tag.kind.opens = true)
      (goesOn : Place.Reaches (.start initial source.toList) (tags ++ place.token tag :: inside)
        last)
      (ended : last.text = [])
      (nested : WellNested (sectionLimit - outer.length - 1) (inside.map Token.mark)) :
      WrongAt initial source offset .unclosedSection
        ("section " ++ Fault.ticked (String.ofList tag.value) ++ " is never closed")

theorem FirstFault.wrong_at {initial : Delimiters} {source : String} {located : Located}
    (fault : FirstFault initial source.toList located) :
    WrongAt initial source located.offset located.fault.kind located.fault.detail := by
  cases fault with
  | @stopped tags place opened _ reaches leaves stops =>
      cases stops with
      | unclosed opened endless =>
          obtain ⟨passed, same, offset⟩ := reaches.passed
          refine .unclosedTag ?_
          have widths := congrArg Text.width same
          simp only [Place.start, Text.width_append, Text.width_eq_utf8_size] at widths offset
          rw [widths, offset, Nat.zero_add]
      | unfit holds change unnamed =>
          have starts := reaches.starts_at leaves holds
          obtain ⟨behind, _, stands⟩ := holds
          rw [unnamed.kind_eq]
          exact .invalidDelimiter starts change (unnamed.words stands.trimmed)
  | broken reaches leaves holds breaks =>
      have starts := reaches.starts_at leaves holds
      cases breaks with
      | tooDeep opens full =>
          exact .nestingTooDeep starts opens (Nat.le_antisymm leaves.bounded full)
      | unopened closes => exact .unopenedSection starts closes
      | mismatched closes other => exact .mismatchedSection starts closes other
  | @unclosed _ last innermost outer reaches ended leaves =>
      obtain ⟨items, tagsEq, goesOn⟩ := reaches.reading
      rw [Place.reading_of_ended ended, Reading.behind, List.append_nil] at goesOn
      generalize opened : innermost :: outer = sections at leaves
      cases leaves with
      | none => contradiction
      | @within before inside _ token around _ opens nested =>
          obtain ⟨rfl, rfl⟩ := List.cons.inj opened
          have read : (Place.start initial source.toList).reading.items.filterMap Item.tag? =
              before ++ token :: inside := by rw [goesOn, tagsEq]
          obtain ⟨place, tag, reached, holds, rfl⟩ := Place.reaches_tag _ before read
          exact .unclosedSection (reached.starts_at around holds) opens reaches ended nested

theorem WrongAt.between {initial : Delimiters} {source detail : String} {offset : Nat}
    {kind : ErrorKind} (wrong : WrongAt initial source offset kind detail) :
    Text.Between offset source.toList := by
  have starts {tags : List Token} {opened : List OpenSection} {place : Place} {tag : Tag}
      (starts : Place.StartsAt initial source.toList offset tags opened place tag) :
      Text.Between offset source.toList := by
    obtain ⟨passed, same, wide⟩ := starts.passed
    exact ⟨passed, place.text, same, wide⟩
  cases wrong with
  | unclosedTag ended =>
      refine ⟨source.toList, [], (List.append_nil _).symm, ?_⟩
      rw [Text.width_eq_utf8_size, ended]
  | unopenedSection starts_at | mismatchedSection starts_at | nestingTooDeep starts_at
  | invalidDelimiter starts_at | unclosedSection starts_at => exact starts starts_at

theorem Text.line_at_append (before behind : List Char) :
    Text.lineAt (Text.width before) (before ++ behind) = before.count '\n' + 1 := by
  have counted := Text.line_feeds_before_append before behind 0
  have noneBehind : Text.lineFeedsBefore 0 behind = 0 := by cases behind <;> rfl
  rw [Nat.add_zero, noneBehind, Nat.add_zero] at counted
  rw [Text.lineAt, counted]

/-- The error of a template that has no tokens is at a position between characters, on the line that
follows as many line feeds as stand before it. A tag that is never closed is reported at the end of
the source, a section that is never closed where the innermost of them is opened, and anything else
where the tag starts that is wrong. A scan with a cursor ends with this error. -/
theorem compile_errors_are_located_exactly (initial : Delimiters) (source : String) {error : Error}
    (failed : Token.ofSource initial source = .error error) :
    ∃ offset line detail, error.location = some ⟨offset, line⟩ ∧ error.detail = some detail ∧
      offset ≤ source.utf8ByteSize ∧ String.Pos.Raw.IsValid source ⟨offset⟩ ∧
      (∃ before behind, source.toList = before ++ behind ∧ Text.width before = offset ∧
        line = before.count '\n' + 1) ∧
      WrongAt initial source offset error.kind detail ∧
      ∀ search : Search, search.FindsFirst → ∃ last located cursor,
        Stage.Reaches search (.start initial source.toList) last ∧
          last.turn search = .ok (.ended (.error located), cursor) ∧
          error = located.toError source.toList := by
  obtain ⟨located, fault, rfl⟩ := Token.of_source_eq_error_iff.1 failed
  have wrong := fault.wrong_at
  have between := wrong.between
  refine ⟨located.offset, _, located.fault.detail, rfl, rfl, ?_,
    Text.between_iff_is_valid.1 between, ?_, wrong, ?_⟩
  · rw [← Text.width_eq_utf8_size]
    exact between.le_width
  · obtain ⟨before, behind, same, wide⟩ := between
    refine ⟨before, behind, same, wide, ?_⟩
    rw [← wide, same, Text.line_at_append]
  · intro search finds
    obtain ⟨last, outcome, cursor, reaches, ends, foretold⟩ :=
      Stage.reaches_end (.start initial source.toList) finds (Cursor.before_start source.toList)
    have same := Token.of_text_eq_error_iff_balanced.1 (Token.of_text_of_first_fault fault)
    rw [Stage.prospect_start] at foretold
    rw [foretold.trans same] at ends
    exact ⟨last, located, cursor, reaches, ends, rfl⟩

/-- The delimiters are changed on the first line; the section on the second is never closed. -/
theorem innermost_open_section_is_located :
    let source := "\x7b\x7b=« »=\x7d\x7d«#a»\n«#b»«/b»\n é«^ c »"
    let error : Error :=
      { kind := .unclosedSection, detail := some "section \x60c\x60 is never closed",
        location := some ⟨34, 3⟩, template := some source }
    Token.ofSource .braces source = .error error ∧
      WrongAt .braces source 34 .unclosedSection "section \x60c\x60 is never closed" := by
  intro source error
  have failed : Token.ofSource .braces source = .error error := by cbv
  obtain ⟨offset, line, detail, location, wording, _, _, _, wrong, _⟩ :=
    compile_errors_are_located_exactly .braces source failed
  obtain ⟨rfl, rfl⟩ := Location.mk.inj (Option.some.inj location)
  obtain rfl := Option.some.inj wording
  exact ⟨failed, wrong⟩

end Mustache

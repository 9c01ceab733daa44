import Mustache.Proofs.TagForms

/-!
Which templates are accepted, and what is reported of those that are not. A template is read from
left to right under the delimiters in force. It is accepted if every opener in its text begins a
tag, every change of delimiters names some, and its sections are well nested and no deeper than
permitted. Otherwise the first tag that breaks one of these is reported; that a section is never
closed is reported where no tag breaks any.
-/

namespace Mustache

/-! ### Reading up to a place -/

/-- How far a template has been read: the delimiters in force there, the byte position, and the
text that follows. -/
structure Place where
  delimiters : Delimiters
  offset : Nat
  text : List Char

/-- Behind the tag the delimiters are those it names, if it is a change of delimiters, and else
those before it. -/
def Tag.PutsInForce (tag : Tag) (before after : Delimiters) : Prop :=
  if tag.kind = .delimiters then after.Named tag.value else after = before

namespace Place

def start (delimiters : Delimiters) (text : List Char) : Place := ⟨delimiters, 0, text⟩

/-- At the place an opener begins the tag. -/
def Holds (place : Place) (tag : Tag) : Prop :=
  ∃ behind, place.text = place.delimiters.opener.chars ++ behind ∧
    Tag.Stands place.delimiters.closer.chars behind tag

/-- The tag as a token of the place. -/
def token (place : Place) (tag : Tag) : Token :=
  ⟨tag.kind, String.ofList tag.value,
    ⟨place.offset, place.offset + (Text.width place.text - Text.width tag.rest)⟩⟩

def behind (place : Place) (tag : Tag) (after : Delimiters) : Place :=
  ⟨after, (place.token tag).span.stop, tag.rest⟩

/-- Reading goes on from the first place to the last, over these tags and over text in which
nothing opens a tag. -/
inductive Reaches : Place → List Token → Place → Prop
  | here (place : Place) : Reaches place [] place
  | char {delimiters : Delimiters} {offset : Nat} {c : Char} {rest : List Char}
      {tags : List Token} {last : Place} (apart : ¬ delimiters.opener.chars <+: c :: rest)
      (on : Reaches ⟨delimiters, offset + c.utf8Size, rest⟩ tags last) :
      Reaches ⟨delimiters, offset, c :: rest⟩ tags last
  | tag {place last : Place} {tag : Tag} {after : Delimiters} {tags : List Token}
      (holds : place.Holds tag) (force : tag.PutsInForce place.delimiters after)
      (on : Reaches (place.behind tag after) tags last) :
      Reaches place (place.token tag :: tags) last

def reading (place : Place) : Reading :=
  Reading.ofText place.delimiters place.offset place.text

/-- What stops the reading at the place. -/
inductive Stops : Place → Located → Prop
  | unclosed {place : Place} {behind : List Char}
      (opened : place.text = place.delimiters.opener.chars ++ behind)
      (endless : ∀ tag, ¬ Tag.Stands place.delimiters.closer.chars behind tag) :
      Stops place ⟨.unclosedTag place.delimiters.closer.text,
        place.offset + Text.width place.text⟩
  | unfit {place : Place} {tag : Tag} {fault : Fault} (holds : place.Holds tag)
      (change : tag.kind = .delimiters) (unnamed : Delimiters.Unnamed tag.value fault) :
      Stops place ⟨fault, place.offset⟩

end Place

theorem Tag.delimiters_after_eq_ok_iff {tag : Tag} {before after : Delimiters} :
    tag.delimitersAfter before = .ok after ↔ tag.PutsInForce before after := by
  simp only [Tag.delimitersAfter, Tag.PutsInForce]
  split
  · exact Delimiters.of_words_eq_ok_iff
  · rw [Except.ok.injEq, eq_comm]

theorem Tag.delimiters_after_eq_error_iff {tag : Tag} {before : Delimiters} {fault : Fault}
    (trimmed : Text.Trimmed tag.value) :
    tag.delimitersAfter before = .error fault ↔
      tag.kind = .delimiters ∧ Delimiters.Unnamed tag.value fault := by
  simp only [Tag.delimitersAfter]
  split
  next change => simp [change, Delimiters.of_words_eq_error_iff trimmed]
  next keeps => simp [keeps]

namespace Place

theorem after_eq_none_iff {delimiters : Delimiters} {text : List Char} :
    Text.after? delimiters.opener.chars text = none ↔ ¬ delimiters.opener.chars <+: text := by
  cases found : Text.after? delimiters.opener.chars text with
  | none =>
      simp only [true_iff]
      rintro ⟨behind, same⟩
      rw [Text.after_eq_some_iff.2 same.symm] at found
      contradiction
  | some behind =>
      simp only [reduceCtorEq, false_iff, not_not]
      exact ⟨behind, (Text.after_eq_some_iff.1 found).symm⟩

theorem Holds.opens {place : Place} {tag : Tag} (holds : place.Holds tag) :
    ∃ c rest behind, place.text = c :: rest ∧
      Text.after? place.delimiters.opener.chars (c :: rest) = some behind ∧
      Tag.read place.delimiters.closer.chars behind = some tag := by
  obtain ⟨behind, opened, stands⟩ := holds
  obtain ⟨c, more, shape⟩ := List.exists_cons_of_ne_nil place.delimiters.opener.nonempty
  have whole : place.text = c :: (more ++ behind) := by rw [opened, shape]; rfl
  refine ⟨c, more ++ behind, behind, whole, ?_, Tag.read_eq_some_iff.2 stands⟩
  rw [← whole]
  exact Text.after_eq_some_iff.2 opened

theorem holds_of_read {delimiters : Delimiters} {offset : Nat} {text behind : List Char}
    {tag : Tag} (opened : Text.after? delimiters.opener.chars text = some behind)
    (made : Tag.read delimiters.closer.chars behind = some tag) :
    Holds ⟨delimiters, offset, text⟩ tag :=
  ⟨behind, Text.after_eq_some_iff.1 opened, Tag.read_eq_some_iff.1 made⟩

/-- A place that is reached is one from which reading goes on as it did from the first. -/
theorem Reaches.reading {first last : Place} {tags : List Token}
    (reaches : Reaches first tags last) :
    ∃ items, items.filterMap Item.tag? = tags ∧
      first.reading = last.reading.behind items := by
  induction reaches with
  | here place => exact ⟨[], rfl, rfl⟩
  | @char delimiters offset c rest tags last apart _ ih =>
      obtain ⟨items, same, goesOn⟩ := ih
      refine ⟨.char offset c :: items, same, ?_⟩
      simp only [Place.reading] at goesOn ⊢
      rw [Reading.of_text_char (after_eq_none_iff.2 apart), goesOn]
      rfl
  | @tag place last tag after tags holds force _ ih =>
      obtain ⟨items, same, goesOn⟩ := ih
      obtain ⟨c, rest, behind, whole, opened, made⟩ := holds.opens
      refine ⟨.tag (place.token tag) :: items, by rw [List.filterMap_cons, Item.tag?, same], ?_⟩
      simp only [Place.reading, Place.behind, Place.token, whole] at goesOn ⊢
      rw [Reading.of_text_tag opened made (Tag.delimiters_after_eq_ok_iff.2 force), goesOn]
      rfl

theorem reading_of_ended {place : Place} (ended : place.text = []) :
    place.reading = ⟨[], none⟩ := by
  simp only [Place.reading, ended, Reading.ofText]

theorem Stops.reading {place : Place} {located : Located} (stops : Stops place located) :
    place.reading = ⟨[], some located⟩ := by
  cases stops with
  | @unclosed behind opened endless =>
      obtain ⟨c, more, shape⟩ := List.exists_cons_of_ne_nil place.delimiters.opener.nonempty
      have whole : place.text = c :: (more ++ behind) := by rw [opened, shape]; rfl
      have unmade : Tag.read place.delimiters.closer.chars behind = none := by
        cases made : Tag.read place.delimiters.closer.chars behind with
        | none => rfl
        | some tag => exact absurd (Tag.read_eq_some_iff.1 made) (endless tag)
      have found : Text.after? place.delimiters.opener.chars (c :: (more ++ behind)) =
          some behind := by
        rw [← whole]
        exact Text.after_eq_some_iff.2 opened
      simp only [Place.reading, whole]
      exact Reading.of_text_unclosed found unmade
  | @unfit tag fault holds change unnamed =>
      obtain ⟨c, rest, behind, whole, opened, made⟩ := holds.opens
      have trimmed := (Tag.stands_of_read made).trimmed
      have unfit : tag.delimitersAfter place.delimiters = .error fault :=
        (Tag.delimiters_after_eq_error_iff trimmed).2 ⟨change, unnamed⟩
      simp only [Place.reading, whole]
      exact Reading.of_text_unfit opened made unfit

/-- Each tag of a reading is one of a place that is reached over the tags before it. -/
theorem reaches_tag (place : Place) {after : List Token} {token : Token} :
    ∀ before, place.reading.items.filterMap Item.tag? = before ++ token :: after →
      ∃ last tag, Reaches place before last ∧ last.Holds tag ∧ last.token tag = token := by
  obtain ⟨delimiters, offset, text⟩ := place
  simp only [Place.reading]
  fun_induction Reading.ofText delimiters offset text with
  | case1 => simp
  | case2 delimiters offset c rest apart ih =>
      intro before tags
      obtain ⟨last, tag, reaches, found⟩ := ih before tags
      exact ⟨last, tag, .char (after_eq_none_iff.1 apart) reaches, found⟩
  | case3 => simp [Reading.stoppedBy]
  | case4 => simp [Reading.stoppedBy]
  | case5 delimiters offset c rest behind opened tag made stop named fit ih =>
      intro before tags
      have holds : Holds ⟨delimiters, offset, c :: rest⟩ tag := holds_of_read opened made
      rw [Reading.cons, List.filterMap_cons] at tags
      cases before with
      | nil => exact ⟨_, tag, .here _, holds, (List.cons.inj tags).1⟩
      | cons first before =>
          obtain ⟨rfl, later⟩ := List.cons.inj tags
          obtain ⟨last, found, reaches, holdsLater⟩ := ih before later
          have force := Tag.delimiters_after_eq_ok_iff.1 fit
          exact ⟨last, found, .tag holds force reaches, holdsLater⟩

/-- Over all tags of a reading the end of the text is reached, or what stopped the reading. -/
theorem reaches_end (place : Place) :
    ∃ last, Reaches place (place.reading.items.filterMap Item.tag?) last ∧
      match place.reading.fault with
      | none => last.text = []
      | some located => Stops last located := by
  obtain ⟨delimiters, offset, text⟩ := place
  simp only [Place.reading]
  fun_induction Reading.ofText delimiters offset text with
  | case1 => exact ⟨_, .here _, rfl⟩
  | case2 delimiters offset c rest apart ih =>
      obtain ⟨last, reaches, ends⟩ := ih
      exact ⟨last, .char (after_eq_none_iff.1 apart) reaches, ends⟩
  | case3 delimiters offset c rest behind opened unmade =>
      refine ⟨_, .here _, .unclosed (Text.after_eq_some_iff.1 opened) ?_⟩
      intro tag stands
      rw [Tag.read_of_stands stands] at unmade
      contradiction
  | case4 delimiters offset c rest behind opened tag made fault unfit =>
      have trimmed := (Tag.stands_of_read made).trimmed
      obtain ⟨change, unnamed⟩ := (Tag.delimiters_after_eq_error_iff trimmed).1 unfit
      exact ⟨_, .here _, .unfit (holds_of_read opened made) change unnamed⟩
  | case5 delimiters offset c rest behind opened tag made stop named fit ih =>
      obtain ⟨last, reaches, ends⟩ := ih
      have force := Tag.delimiters_after_eq_ok_iff.1 fit
      exact ⟨last, .tag (holds_of_read opened made) force reaches, ends⟩

end Place

/-! ### Sections left open -/

/-- The tags leave these sections open, innermost first: each stands in the one before it, and
what stands between their tags is well nested. -/
inductive LeavesOpen : List Token → List OpenSection → Prop
  | none {tags : List Token} (nested : WellNested sectionLimit (tags.map Token.mark)) :
      LeavesOpen tags []
  | within {before inside : List Token} {opened : List OpenSection} {token : Token}
      (around : LeavesOpen before opened) (room : opened.length < sectionLimit)
      (opens : token.kind.opens = true)
      (nested : WellNested (sectionLimit - opened.length - 1) (inside.map Token.mark)) :
      LeavesOpen (before ++ token :: inside) (⟨token.value, token.span.first⟩ :: opened)

/-- What a token does wrong where these sections are open. -/
inductive Token.Breaks (token : Token) : List OpenSection → Located → Prop
  | tooDeep {opened : List OpenSection} (opens : token.kind.opens = true)
      (full : sectionLimit ≤ opened.length) :
      Breaks token opened ⟨.sectionsTooDeep token.value, token.span.first⟩
  | unopened (closes : token.kind = .closing) :
      Breaks token [] ⟨.unopenedSection token.value, token.span.first⟩
  | mismatched {innermost : OpenSection} {outer : List OpenSection}
      (closes : token.kind = .closing) (other : innermost.name ≠ token.value) :
      Breaks token (innermost :: outer)
        ⟨.mismatchedSection innermost.name token.value, token.span.first⟩

theorem WellNested.append {room : Nat} {marks others : List (TokenKind × String)}
    (nested : WellNested room marks) (follows : WellNested room others) :
    WellNested room (marks ++ others) := by
  induction nested with
  | nil => exact follows
  | leaf opens closes _ ih => exact .leaf opens closes (ih follows)
  | within opens inside _ _ ih =>
      rw [List.cons_append, List.append_assoc, List.cons_append]
      exact .within opens inside (ih follows)

theorem LeavesOpen.bounded {tags : List Token} {opened : List OpenSection}
    (leaves : LeavesOpen tags opened) : opened.length ≤ sectionLimit := by
  cases leaves with
  | none => exact Nat.zero_le _
  | within _ room _ _ => exact room

/-- Well-nested tags leave open what was open before them. -/
theorem LeavesOpen.append {tags others : List Token} {opened : List OpenSection}
    (leaves : LeavesOpen tags opened)
    (nested : WellNested (sectionLimit - opened.length) (others.map Token.mark)) :
    LeavesOpen (tags ++ others) opened := by
  cases leaves with
  | none inside =>
      refine .none ?_
      rw [List.map_append]
      exact inside.append nested
  | within around room opens inside =>
      rw [List.append_assoc, List.cons_append]
      refine .within around room opens ?_
      rw [List.map_append]
      rw [List.length_cons, ← Nat.sub_sub] at nested
      exact inside.append nested

theorem LeavesOpen.fold {tags : List Token} {opened : List OpenSection}
    (leaves : LeavesOpen tags opened) : tags.foldlM Token.shiftSections [] = .ok opened := by
  induction leaves with
  | none nested => exact nested.balanced rfl (by simp)
  | @within before inside opened token around room opens nested ih =>
      have enters :
          token.shiftSections opened = .ok (⟨token.value, token.span.first⟩ :: opened) := by
        obtain ⟨kind, value, span⟩ := token
        cases kind with
        | opening | inverted => exact if_neg (Nat.not_le.2 room)
        | _ => contradiction
      rw [Token.fold_sections_append ih, Token.fold_sections_cons enters]
      refine nested.balanced rfl ?_
      rw [List.length_cons]
      omega

/-- One more token leaves open what it makes of the sections open before it. -/
theorem LeavesOpen.shift {tags : List Token} {token : Token} {opened left : List OpenSection}
    (leaves : LeavesOpen tags opened) (shifted : token.shiftSections opened = .ok left) :
    LeavesOpen (tags ++ [token]) left := by
  rcases Token.shift_sections_cases shifted with
    ⟨opens, room, rfl⟩ | ⟨closes, offset, rfl⟩ | ⟨opens, closes, rfl⟩
  · exact .within leaves room opens .nil
  · generalize shape : ⟨token.value, offset⟩ :: left = opened at leaves
    cases leaves with
    | none => contradiction
    | @within before inside outer opening around room opens nested =>
        obtain ⟨same, rfl⟩ := List.cons.inj shape
        have name : token.value = opening.value := (OpenSection.mk.inj same).1
        have levels : sectionLimit - left.length - 1 + 1 = sectionLimit - left.length := by omega
        have block : WellNested (sectionLimit - left.length)
            ((opening.kind, opening.value) ::
              (inside.map Token.mark ++ (.closing, opening.value) :: [])) := by
          rw [← levels]
          exact .within opens nested .nil
        have closed : WellNested (sectionLimit - left.length)
            ((opening :: (inside ++ [token])).map Token.mark) := by
          simpa [Token.mark, closes, name] using block
        simpa using around.append closed
  · exact leaves.append (.leaf opens closes .nil)

/-- The sections open behind a run over tags are those the tags leave open. -/
theorem leaves_open_iff {tags : List Token} {opened : List OpenSection} :
    LeavesOpen tags opened ↔ tags.foldlM Token.shiftSections [] = .ok opened := by
  refine ⟨LeavesOpen.fold, ?_⟩
  induction tags using List.reverseRecOn generalizing opened with
  | nil =>
      intro folded
      obtain rfl : [] = opened := Except.ok.inj folded
      exact .none .nil
  | append_singleton tags token ih =>
      intro folded
      cases before : tags.foldlM Token.shiftSections [] with
      | error located =>
          rw [List.foldlM_append, before] at folded
          contradiction
      | ok around =>
          have shifted : token.shiftSections around = .ok opened := by
            rw [Token.fold_sections_append before] at folded
            simpa using folded
          exact (ih before).shift shifted

theorem Token.shift_sections_eq_error_iff {token : Token} {opened : List OpenSection}
    {located : Located} :
    token.shiftSections opened = .error located ↔ token.Breaks opened located := by
  obtain ⟨kind, value, span⟩ := token
  constructor
  · intro broken
    cases kind with
    | opening | inverted =>
        simp only [Token.shiftSections] at broken
        split at broken
        next full =>
          rw [← Except.error.inj broken]
          exact .tooDeep rfl full
        · contradiction
    | closing =>
        simp only [Token.shiftSections] at broken
        split at broken
        · rw [← Except.error.inj broken]
          exact .unopened rfl
        next innermost outer =>
          split at broken
          · contradiction
          next other =>
            rw [← Except.error.inj broken]
            exact .mismatched rfl other
    | _ => contradiction
  · intro breaks
    cases breaks with
    | tooDeep opens full =>
        cases kind with
        | opening | inverted => exact if_pos full
        | _ => contradiction
    | unopened closes =>
        cases kind with
        | closing => rfl
        | _ => contradiction
    | mismatched closes other =>
        cases kind with
        | closing => exact if_neg other
        | _ => contradiction

/-- A run over tags fails at the first that breaks the balance. -/
theorem fold_sections_eq_error_iff {tags : List Token} {located : Located} :
    tags.foldlM Token.shiftSections [] = .error located ↔
      ∃ before token after opened, tags = before ++ token :: after ∧
        LeavesOpen before opened ∧ token.Breaks opened located := by
  constructor
  · intro failed
    induction tags using List.reverseRecOn with
    | nil => contradiction
    | append_singleton tags token ih =>
        cases folded : tags.foldlM Token.shiftSections [] with
        | error other =>
            rw [List.foldlM_append, folded] at failed
            cases failed
            obtain ⟨before, first, after, opened, rfl, leaves, breaks⟩ := ih folded
            exact ⟨before, first, after ++ [token], opened, by simp, leaves, breaks⟩
        | ok opened =>
            rw [Token.fold_sections_append folded] at failed
            have broken : token.shiftSections opened = .error located := by simpa using failed
            exact ⟨tags, token, [], opened, rfl, leaves_open_iff.2 folded,
              Token.shift_sections_eq_error_iff.1 broken⟩
  · rintro ⟨before, token, after, opened, rfl, leaves, breaks⟩
    rw [Token.fold_sections_append leaves.fold, List.foldlM_cons,
      Token.shift_sections_eq_error_iff.2 breaks]
    rfl

/-! ### The first fault -/

/-- The template can be read to its end, and its sections are well nested. -/
def Accepted (delimiters : Delimiters) (text : List Char) : Prop :=
  ∃ tags last, Place.Reaches (.start delimiters text) tags last ∧ last.text = [] ∧
    WellNested sectionLimit (tags.map Token.mark)

/-- What is at fault at the first place where something is: no tag up to there stops the reading or
breaks the balance of sections. A section that is never closed is at fault only behind all tags. -/
inductive FirstFault (delimiters : Delimiters) (text : List Char) : Located → Prop
  | stopped {tags : List Token} {place : Place} {opened : List OpenSection} {located : Located}
      (reaches : Place.Reaches (.start delimiters text) tags place)
      (leaves : LeavesOpen tags opened) (stops : place.Stops located) :
      FirstFault delimiters text located
  | broken {tags : List Token} {place : Place} {tag : Tag} {opened : List OpenSection}
      {located : Located} (reaches : Place.Reaches (.start delimiters text) tags place)
      (leaves : LeavesOpen tags opened) (holds : place.Holds tag)
      (breaks : (place.token tag).Breaks opened located) : FirstFault delimiters text located
  | unclosed {tags : List Token} {last : Place} {innermost : OpenSection}
      {outer : List OpenSection} (reaches : Place.Reaches (.start delimiters text) tags last)
      (ended : last.text = []) (leaves : LeavesOpen tags (innermost :: outer)) :
      FirstFault delimiters text ⟨.unclosedSection innermost.name, innermost.offset⟩

theorem Reading.balanced_eq_error_iff {reading : Reading} {located : Located} :
    reading.balanced = .error located ↔
      match (reading.items.filterMap Item.tag?).foldlM Token.shiftSections [], reading.fault with
      | .error broken, _ => broken = located
      | .ok _, some stopped => stopped = located
      | .ok [], none => False
      | .ok (innermost :: _), none =>
          ⟨.unclosedSection innermost.name, innermost.offset⟩ = located := by
  rw [Reading.balanced, sections_behind_eq_fold]
  cases (reading.items.filterMap Item.tag?).foldlM Token.shiftSections [] with
  | error broken => simp
  | ok opened => cases reading.fault <;> cases opened <;> simp

namespace Place

/-- A tag that breaks the balance is among those read from its place on. -/
theorem Holds.reading_of_breaks {place : Place} {tag : Tag} {opened : List OpenSection}
    {located : Located} (holds : place.Holds tag)
    (breaks : (place.token tag).Breaks opened located) :
    ∃ after, place.reading.items.filterMap Item.tag? = place.token tag :: after := by
  have unchanging : tag.kind ≠ .delimiters := by
    intro change
    cases breaks with
    | tooDeep opens _ => simp [token, change, TokenKind.opens] at opens
    | unopened closes | mismatched closes _ => simp [token, change] at closes
  have force : tag.PutsInForce place.delimiters place.delimiters := by
    rw [Tag.PutsInForce, if_neg unchanging]
  have reaches : Reaches place [place.token tag] (place.behind tag place.delimiters) :=
    .tag holds force (.here _)
  obtain ⟨items, tags, goesOn⟩ := reaches.reading
  refine ⟨(place.behind tag place.delimiters).reading.items.filterMap Item.tag?, ?_⟩
  rw [goesOn, Reading.behind, List.filterMap_append, tags]
  rfl

end Place

namespace Token

variable {delimiters : Delimiters} {text : List Char}

theorem accepted_of_text {tokens : List Token} (made : ofText delimiters text = .ok tokens) :
    Accepted delimiters text := by
  obtain ⟨items, read, closed, _⟩ := Token.of_text_eq_ok_iff.1 made
  obtain ⟨last, reaches, ended⟩ := Place.reaches_end (.start delimiters text)
  have reading : (Place.start delimiters text).reading = ⟨items, none⟩ := read
  rw [reading] at reaches ended
  rw [sections_behind_eq_fold] at closed
  have leaves := leaves_open_iff.2 closed
  generalize items.filterMap Item.tag? = tags at reaches leaves
  cases leaves with
  | none nested => exact ⟨tags, last, reaches, ended, nested⟩

theorem of_text_of_accepted (accepted : Accepted delimiters text) :
    ∃ tokens, ofText delimiters text = .ok tokens := by
  obtain ⟨tags, last, reaches, ended, nested⟩ := accepted
  obtain ⟨items, same, goesOn⟩ := reaches.reading
  rw [Place.reading_of_ended ended, Reading.behind, List.append_nil] at goesOn
  have read : Reading.ofText delimiters 0 text = ⟨items, none⟩ := goesOn
  have closed : sectionsBehind [] items = .ok [] := by
    rw [sections_behind_eq_fold, same]
    exact leaves_open_iff.1 (.none nested)
  exact ⟨_, Token.of_text_eq_ok_iff.2 ⟨items, read, closed, rfl⟩⟩

theorem of_text_eq_error_iff_balanced {located : Located} :
    ofText delimiters text = .error located ↔
      (Place.start delimiters text).reading.balanced = .error located := by
  change (Place.start delimiters text).reading.balanced.map _ = _ ↔ _
  cases (Place.start delimiters text).reading.balanced <;> simp [Except.map]

theorem first_fault_of_text {located : Located} (failed : ofText delimiters text = .error located) :
    FirstFault delimiters text located := by
  obtain ⟨last, reaches, ends⟩ := Place.reaches_end (.start delimiters text)
  have broken := Reading.balanced_eq_error_iff.1 (of_text_eq_error_iff_balanced.1 failed)
  split at broken
  next folded =>
    subst broken
    obtain ⟨before, token, after, opened, tags, leaves, breaks⟩ :=
      fold_sections_eq_error_iff.1 folded
    obtain ⟨place, tag, reached, holds, rfl⟩ := Place.reaches_tag _ before tags
    exact .broken reached leaves holds breaks
  next opened stopped folded fault =>
    subst broken
    rw [fault] at ends
    exact .stopped reaches (leaves_open_iff.2 folded) ends
  next => contradiction
  next innermost outer folded fault =>
    subst broken
    rw [fault] at ends
    exact .unclosed reaches ends (leaves_open_iff.2 folded)

theorem of_text_of_first_fault {located : Located} (fault : FirstFault delimiters text located) :
    ofText delimiters text = .error located := by
  rw [of_text_eq_error_iff_balanced, Reading.balanced_eq_error_iff]
  cases fault with
  | stopped reaches leaves stops =>
      obtain ⟨items, tags, goesOn⟩ := reaches.reading
      rw [goesOn, stops.reading]
      simp only [Reading.behind, List.append_nil, tags, leaves.fold]
  | broken reaches leaves holds breaks =>
      obtain ⟨items, tags, goesOn⟩ := reaches.reading
      obtain ⟨after, later⟩ := holds.reading_of_breaks breaks
      have failed := fold_sections_eq_error_iff.2 ⟨_, _, after, _, rfl, leaves, breaks⟩
      simp only [goesOn, Reading.behind, List.filterMap_append, tags, later, failed]
  | unclosed reaches ended leaves =>
      obtain ⟨items, tags, goesOn⟩ := reaches.reading
      rw [goesOn, Place.reading_of_ended ended]
      simp only [Reading.behind, List.append_nil, tags, leaves.fold]

end Token

/-- A template has tokens exactly if it can be read to its end and its sections are well nested.
The error reported of any other is that of the first tag at fault, and the innermost section left
open is reported where no tag is. -/
theorem leftmost_fault_is_reported (delimiters : Delimiters) (source : String) :
    ((∃ tokens, Token.ofSource delimiters source = .ok tokens) ↔
        Accepted delimiters source.toList) ∧
      ∀ error, Token.ofSource delimiters source = .error error ↔
        ∃ located, FirstFault delimiters source.toList located ∧
          error = located.toError source.toList := by
  constructor
  · simp only [Token.of_source_eq_ok_iff]
    exact ⟨fun ⟨_, made⟩ => Token.accepted_of_text made, Token.of_text_of_accepted⟩
  · intro error
    simp only [Token.ofSource]
    constructor
    · intro failed
      cases made : Token.ofText delimiters source.toList with
      | error located =>
          rw [made] at failed
          exact ⟨located, Token.first_fault_of_text made, (Except.error.inj failed).symm⟩
      | ok tokens =>
          rw [made] at failed
          contradiction
    · rintro ⟨located, fault, rfl⟩
      rw [Token.of_text_of_first_fault fault]
      rfl

-- behind a change of delimiters the wrong name is reported, not the tag that is never closed
example :
    Token.ofText .braces "\x7b\x7b#a\x7d\x7d\x7b\x7b=| |=\x7d\x7d|/b||x".toList =
      .error ⟨.mismatchedSection "a" "b", 15⟩ := by
  cbv

end Mustache

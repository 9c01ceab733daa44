import Mustache.Proofs.BytePositions
import Mustache.Proofs.Acceptance

/-!
The words of a change of delimiters. The words of a text are what stands between its blanks. A
change of delimiters puts its words in force if there are two, and is refused, where it stands, if
there are more or fewer. An iterator over the characters of the text, which cuts the words off and
leaves the last one with all that follows it, comes to the same.
-/

namespace Mustache

namespace Text

/-- The pieces between the blanks of a text, without those that are empty. -/
def words (text : List Char) : List (List Char) :=
  (text.splitOnP isBlank).filter fun piece => !piece.isEmpty

theorem words_nil : words [] = [] := rfl

/-- Words are told apart at a blank; the lemmas below all come from this. -/
theorem words_append_blank {c : Char} (blank : isBlank c = true) (text rest : List Char) :
    words (text ++ c :: rest) = words text ++ words rest := by
  rw [words, List.splitOnP_append_cons text rest blank, List.filter_append]
  rfl

theorem words_solid {word : List Char} (nonempty : word ≠ [])
    (solid : ∀ c ∈ word, isBlank c = false) : words word = [word] := by
  rw [words, List.splitOnP_eq_singleton solid]
  simp [nonempty]

theorem words_behind_blanks {blanks : List Char} (blank : ∀ c ∈ blanks, isBlank c = true)
    (rest : List Char) : words (blanks ++ rest) = words rest := by
  induction blanks with
  | nil => rfl
  | cons c blanks ih =>
      obtain ⟨first, others⟩ := List.forall_mem_cons.1 blank
      have split := words_append_blank first [] (blanks ++ rest)
      rw [List.nil_append, words_nil, List.nil_append, ih others] at split
      exact split

theorem words_apart {word : List Char} (nonempty : word ≠ [])
    (solid : ∀ c ∈ word, isBlank c = false) {gap : Blanks} (apart : (gap : List Char) ≠ [])
    (rest : List Char) : words (word ++ (gap ++ rest)) = word :: words rest := by
  obtain ⟨first, others, shape⟩ := List.exists_cons_of_ne_nil apart
  have blank := gap.2
  rw [shape] at blank ⊢
  obtain ⟨firstBlank, othersBlank⟩ := List.forall_mem_cons.1 blank
  rw [List.cons_append, words_append_blank firstBlank, words_solid nonempty solid,
    words_behind_blanks othersBlank]
  rfl

theorem words_ne_nil {text : List Char} {c : Char} (among : c ∈ text)
    (solid : isBlank c = false) : words text ≠ [] := by
  obtain ⟨lead, blank, leads⟩ := drop_blank_split text
  rw [leads, words_behind_blanks blank]
  have begins := drop_blank_head_solid text
  obtain ⟨wordSolid, gap, parts, ends⟩ := first_word_split (dropBlank text)
  have filled : firstWord (dropBlank text) ≠ [] := by
    cases shape : dropBlank text with
    | nil =>
        rw [shape, List.append_nil] at leads
        rw [leads] at among
        simp [blank c among] at solid
    | cons first rest => simp [firstWord, begins first (by simp [shape])]
  by_cases apart : (gap : List Char) = []
  · rw [apart, ends apart, List.nil_append, List.append_nil] at parts
    rw [parts, words_solid filled wordSolid]
    exact List.cons_ne_nil _ _
  · rw [parts, words_apart filled wordSolid apart]
    exact List.cons_ne_nil _ _

end Text

namespace Delimiters

theorem Named.words {text : List Char} {delimiters : Delimiters} (named : delimiters.Named text) :
    Text.words text = [delimiters.opener.chars, delimiters.closer.chars] := by
  obtain ⟨gap, apart, rfl⟩ := named
  rw [Text.words_apart delimiters.opener.nonempty delimiters.opener.solid apart,
    Text.words_solid delimiters.closer.nonempty delimiters.closer.solid]

/-- Where a text names no delimiters its words are too few, or there is one behind the second. -/
theorem Unnamed.words {text : List Char} {fault : Fault} (trimmed : Text.Trimmed text)
    (unnamed : Unnamed text fault) : (Text.words text).length ≠ 2 := by
  cases unnamed with
  | lacking solid =>
      by_cases empty : text = []
      · simp [empty, Text.words_nil]
      · simp [Text.words_solid empty solid]
  | @crowded word rest gap nonempty solid apart begins blank =>
      obtain ⟨c, among, blankChar⟩ := List.any_eq_true.1 blank
      obtain ⟨front, back, rfl⟩ := List.append_of_mem among
      have frontFilled : Text.words front ≠ [] := by
        cases front with
        | nil => simp [begins c rfl] at blankChar
        | cons first more => exact Text.words_ne_nil List.mem_cons_self (begins first rfl)
      have backFilled : Text.words back ≠ [] := by
        rcases List.eq_nil_or_concat back with rfl | ⟨body, last, rfl⟩
        · simp [trimmed.2 c (by simp)] at blankChar
        · have ends : last ∈ (word ++ (gap ++ (front ++ c :: body.concat last))).getLast? := by
            simp [List.getLast?_cons]
          exact Text.words_ne_nil (c := last) (by simp) (trimmed.2 last ends)
      have frontSome := List.length_pos_iff.2 frontFilled
      have backSome := List.length_pos_iff.2 backFilled
      rw [Text.words_apart nonempty solid apart, Text.words_append_blank blankChar,
        List.length_cons, List.length_append]
      omega

variable {text : List Char}

theorem of_words_eq_ok_iff_words (trimmed : Text.Trimmed text) {delimiters : Delimiters} :
    ofWords text = .ok delimiters ↔
      Text.words text = [delimiters.opener.chars, delimiters.closer.chars] := by
  refine ⟨fun made => (of_words_eq_ok_iff.1 made).words, fun two => ?_⟩
  cases made : ofWords text with
  | error fault =>
      have other := ((of_words_eq_error_iff trimmed).1 made).words trimmed
      simp [two] at other
  | ok named =>
      have same := (of_words_eq_ok_iff.1 made).words
      obtain ⟨⟨opener, _, _⟩, ⟨closer, _, _⟩⟩ := named
      obtain ⟨⟨_, _, _⟩, ⟨_, _, _⟩⟩ := delimiters
      simp only [two, List.cons.injEq, and_true] at same
      obtain ⟨rfl, rfl⟩ := same
      rfl

theorem names_some_iff_words (trimmed : Text.Trimmed text) :
    (∃ delimiters, ofWords text = .ok delimiters) ↔ (Text.words text).length = 2 := by
  constructor
  · rintro ⟨delimiters, made⟩
    simp [(of_words_eq_ok_iff_words trimmed).1 made]
  · intro two
    cases made : ofWords text with
    | error fault => exact absurd two (((of_words_eq_error_iff trimmed).1 made).words trimmed)
    | ok delimiters => exact ⟨delimiters, rfl⟩

end Delimiters

/-! ### Words cut off one by one -/

/-- What an iterator over the words of a text remembers between two of them: which of its pieces
is to come, whether no character of it was met, where it begins and where the last one ended, and
how many bytes are passed. -/
structure Splitter where
  count : Nat := 1
  skipping : Bool := true
  begun : Option Nat := none
  ended : Nat := 0
  passed : Nat := 0
  deriving DecidableEq, Repr

namespace Splitter

/-- The next piece of a text that is to have at most so many, and the characters behind it. -/
def next (text : List Char) (most : Nat) (splitter : Splitter) :
    List Char → Except Torn (Option (List Char) × Splitter × List Char)
  | [] => do
      let (_, rest) ← Text.divide splitter.ended text
      if rest = [] then return (none, splitter, [])
      else return (some rest, { splitter with ended := Text.width text }, [])
  | c :: ahead =>
      let beyond := { splitter with passed := splitter.passed + c.utf8Size }
      if most ≤ splitter.count ∧ splitter.skipping = false then next text most beyond ahead
      else if Text.isBlank c then
        match splitter.begun with
        | none => next text most beyond ahead
        | some first => do
            let piece ← Text.part first splitter.passed text
            return (some piece,
              { beyond with
                count := splitter.count + 1, skipping := true, begun := none,
                ended := splitter.passed },
              ahead)
      else if splitter.begun = none then
        next text most
          { beyond with
            skipping := false, begun := some splitter.passed, ended := splitter.passed }
          ahead
      else next text most { beyond with skipping := false } ahead

/-- The first two pieces, the second with all that follows it; empty where there is none. -/
def pair (text : List Char) : Except Torn (List Char × List Char) := do
  let (first, splitter, ahead) ← next text 2 {} text
  let (second, _) ← next text 2 splitter ahead
  return (first.getD [], second.getD [])

def delimiters (text : List Char) : Except Torn (Except Fault Delimiters) :=
  (pair text).map fun pieces => Delimiters.ofChars pieces.1 pieces.2

variable {text word ahead : List Char} {most count first passed : Nat}

/-- In the midst of a piece nothing but a blank is of interest. -/
theorem next_solid (solid : ∀ c ∈ word, Text.isBlank c = false) :
    next text most ⟨count, false, some first, first, passed⟩ (word ++ ahead) =
      next text most ⟨count, false, some first, first, passed + Text.width word⟩ ahead := by
  induction word generalizing passed with
  | nil => rfl
  | cons c word ih =>
      obtain ⟨inked, others⟩ := List.forall_mem_cons.1 solid
      have further := @ih (passed + c.utf8Size) others
      rw [Nat.add_assoc] at further
      simpa [next, inked, Text.width] using further

/-- In the midst of the last piece not even a blank is. -/
theorem next_last (enough : most ≤ count) (ahead : List Char) :
    next text most ⟨count, false, some first, first, passed⟩ ahead =
      next text most ⟨count, false, some first, first, passed + Text.width ahead⟩ [] := by
  induction ahead generalizing passed with
  | nil => rfl
  | cons c ahead ih =>
      have further := @ih (passed + c.utf8Size)
      rw [Nat.add_assoc] at further
      simpa [next, enough, Text.width] using further

/-- Between two pieces blanks are passed over. -/
theorem next_blanks {blanks : List Char} {ended : Nat}
    (blank : ∀ c ∈ blanks, Text.isBlank c = true) :
    next text most ⟨count, true, none, ended, passed⟩ (blanks ++ ahead) =
      next text most ⟨count, true, none, ended, passed + Text.width blanks⟩ ahead := by
  induction blanks generalizing passed with
  | nil => rfl
  | cons c blanks ih =>
      obtain ⟨own, others⟩ := List.forall_mem_cons.1 blank
      have further := @ih (passed + c.utf8Size) others
      rw [Nat.add_assoc] at further
      simpa [next, own, Text.width] using further

/-- A piece begins with the first character that is no blank. -/
theorem next_begins {ended : Nat} (nonempty : word ≠ [])
    (solid : ∀ c ∈ word, Text.isBlank c = false) :
    next text most ⟨count, true, none, ended, passed⟩ (word ++ ahead) =
      next text most ⟨count, false, some passed, passed, passed + Text.width word⟩ ahead := by
  obtain ⟨c, others, rfl⟩ := List.exists_cons_of_ne_nil nonempty
  obtain ⟨inked, solidBehind⟩ := List.forall_mem_cons.1 solid
  have further : next text most ⟨count, false, some passed, passed, passed + c.utf8Size⟩
      (others ++ ahead) = _ := next_solid solidBehind
  rw [Nat.add_assoc] at further
  simpa [next, inked, Text.width] using further

/-- A blank ends a piece. -/
theorem next_word {c : Char} (room : count < most) (blank : Text.isBlank c = true)
    (before word behind ahead : List Char) :
    next (before ++ (word ++ behind)) most
        ⟨count, false, some (Text.width before), Text.width before,
          Text.width before + Text.width word⟩ (c :: ahead) =
      .ok (some word,
        ⟨count + 1, true, none, Text.width before + Text.width word,
          Text.width before + Text.width word + c.utf8Size⟩, ahead) := by
  have unfinished : ¬ most ≤ count := Nat.not_le.2 room
  simp only [next, unfinished, false_and, if_false, blank, if_true, Text.part_append, bind,
    Except.bind, pure, Except.pure]

/-- At the end of the text what stands behind the last position is a piece. -/
theorem next_rest (before : List Char) {rest : List Char} (filled : rest ≠ []) {skipping : Bool}
    {begun : Option Nat} :
    next (before ++ rest) most ⟨count, skipping, begun, Text.width before, passed⟩ [] =
      .ok (some rest, ⟨count, skipping, begun, Text.width (before ++ rest), passed⟩, []) := by
  simp only [next, Text.divide_append, if_neg filled, bind, Except.bind, pure, Except.pure]

theorem next_ended (text : List Char) {skipping : Bool} {begun : Option Nat} :
    next text most ⟨count, skipping, begun, Text.width text, passed⟩ [] =
      .ok (none, ⟨count, skipping, begun, Text.width text, passed⟩, []) := by
  have divided := Text.divide_append text []
  rw [List.append_nil] at divided
  simp only [next, divided, if_true, bind, Except.bind, pure, Except.pure]

/-- A single word is the first piece, and there is no other. -/
theorem pair_solid (nonempty : word ≠ []) (solid : ∀ c ∈ word, Text.isBlank c = false) :
    pair word = .ok (word, []) := by
  have starts : next word 2 {} word = next word 2 ⟨1, false, some 0, 0, Text.width word⟩ [] := by
    have begins : next word 2 {} (word ++ []) = _ := next_begins nonempty solid
    rwa [List.append_nil, Nat.zero_add] at begins
  have whole : next word 2 ⟨1, false, some 0, 0, Text.width word⟩ [] =
      .ok (some word, ⟨1, false, some 0, Text.width word, Text.width word⟩, []) :=
    next_rest [] nonempty
  simp only [pair, starts, whole, next_ended, bind, Except.bind, pure, Except.pure,
    Option.getD_some, Option.getD_none]

/-- Behind a word and blanks, what is left is the second piece. -/
theorem pair_apart {gap : Blanks} {rest : List Char} (nonempty : word ≠ [])
    (solid : ∀ c ∈ word, Text.isBlank c = false) (apart : (gap : List Char) ≠ [])
    (filled : rest ≠ []) (begins : ∀ c ∈ rest.head?, Text.isBlank c = false) :
    pair (word ++ (gap ++ rest)) = .ok (word, rest) := by
  obtain ⟨gap, blank⟩ := gap
  obtain ⟨first, others, rfl⟩ := List.exists_cons_of_ne_nil apart
  obtain ⟨firstBlank, othersBlank⟩ := List.forall_mem_cons.1 blank
  obtain ⟨c, more, rfl⟩ := List.exists_cons_of_ne_nil filled
  have inked := begins c rfl
  simp only [List.cons_append]
  generalize whole : word ++ first :: (others ++ c :: more) = text
  have cut : next text 2 {} text =
      .ok (some word, ⟨2, true, none, Text.width word, Text.width word + first.utf8Size⟩,
        others ++ c :: more) := by
    have starts : next text 2 {} (word ++ first :: (others ++ c :: more)) = _ :=
      next_begins nonempty solid
    have ends := next_word (Nat.lt_succ_self 1) firstBlank [] word
      (first :: (others ++ c :: more)) (others ++ c :: more)
    simp only [List.nil_append, whole, Text.width, Nat.zero_add] at starts ends
    rw [starts, ends]
  have left : ∃ splitter, next text 2
      ⟨2, true, none, Text.width word, Text.width word + first.utf8Size⟩ (others ++ c :: more) =
        .ok (some (c :: more), splitter, []) := by
    have begun : Text.width word + first.utf8Size + Text.width others =
        Text.width (word ++ first :: others) := by
      rw [Text.width_append, Text.width, Nat.add_assoc]
    generalize before : word ++ first :: others = front at begun
    have same : front ++ c :: more = text := by
      rw [← before, ← whole, List.append_assoc, List.cons_append]
    have one : next text 2 ⟨2, true, none, Text.width word, Text.width front⟩ ([c] ++ more) = _ :=
      next_begins (List.cons_ne_nil c []) (List.forall_mem_singleton.2 inked)
    rw [List.singleton_append] at one
    rw [next_blanks othersBlank, begun, one, next_last (Nat.le_refl 2), ← same,
      next_rest front (List.cons_ne_nil c more)]
    exact ⟨_, rfl⟩
  obtain ⟨splitter, left⟩ := left
  simp only [pair, cut, left, bind, Except.bind, pure, Except.pure, Option.getD_some]

/-- Of a text without blanks at its ends the pieces are its first word and what follows that. -/
theorem pair_eq (trimmed : Text.Trimmed text) :
    pair text = .ok (Text.firstWord text, Text.afterFirstWord text) := by
  obtain ⟨solid, gap, parts, ends⟩ := Text.first_word_split text
  have begins : ∀ c ∈ (Text.afterFirstWord text).head?, Text.isBlank c = false :=
    Text.drop_blank_head_solid _
  by_cases filled : Text.afterFirstWord text = []
  · have joined : (gap : List Char) = [] := by
      rcases List.eq_nil_or_concat (gap : List Char) with noneBehind | ⟨body, last, behind⟩
      · exact noneBehind
      · have ending : last ∈ text.getLast? := by
          rw [parts, filled, behind]
          simp
        have blank := gap.2 last (by simp [behind])
        simp [trimmed.2 last ending] at blank
    rw [filled, joined, List.append_nil, List.append_nil] at parts
    rw [filled, ← parts]
    by_cases empty : text = []
    · rw [empty]
      rfl
    · exact pair_solid empty (parts ▸ solid)
  · have apart : (gap : List Char) ≠ [] := fun joined => filled (ends joined)
    have nonempty : Text.firstWord text ≠ [] := by
      intro empty
      obtain ⟨first, behind, shape⟩ := List.exists_cons_of_ne_nil apart
      have blank := gap.2 first (by simp [shape])
      rw [empty, shape] at parts
      simp [trimmed.1 first (by rw [parts]; rfl)] at blank
    have pieces := pair_apart nonempty solid apart filled begins
    rwa [← parts] at pieces

theorem delimiters_eq (trimmed : Text.Trimmed text) :
    delimiters text = .ok (Delimiters.ofWords text) := by
  rw [delimiters, pair_eq trimmed]
  rfl

end Splitter

/-! ### Where a change of delimiters stands -/

namespace Place

variable {place first last : Place} {tag : Tag} {tags : List Token} {after : Delimiters}

/-- A change of delimiters stands where an opener and an equals sign do, if there is another equals
sign behind them and a closer behind that. -/
theorem holds_change {lead : Blanks} {body passed rest : List Char}
    (stands : place.text = place.delimiters.opener.chars ++ (lead ++ '=' :: (body ++
      '=' :: (passed ++ (place.delimiters.closer.chars ++ rest)))))
    (unequal : '=' ∉ body) (clear : Text.EndsFirst place.delimiters.closer.chars passed) :
    place.Holds ⟨.delimiters, Text.trimEnd (Text.dropBlank body), rest⟩ := by
  obtain ⟨before, blankBefore, leads⟩ := Text.drop_blank_split body
  obtain ⟨behind, blankBehind, trails⟩ := Text.trim_end_split (Text.dropBlank body)
  have trimmed : Text.Trimmed (Text.trimEnd (Text.dropBlank body)) :=
    Text.trim_end_trimmed (List.prefix_refl _)
  have valueUnequal : '=' ∉ Text.trimEnd (Text.dropBlank body) := by
    intro among
    rw [leads, trails] at unequal
    exact unequal (List.mem_append_right _ (List.mem_append_left _ among))
  have form : Tag.Stands place.delimiters.closer.chars _ ⟨.delimiters, _, rest⟩ :=
    .change ⟨lead, ⟨before, blankBefore⟩, ⟨behind, blankBehind⟩⟩ trimmed valueUnequal clear
  have whole : body = before ++ (Text.trimEnd (Text.dropBlank body) ++ behind) := by
    rw [← trails, ← leads]
  refine ⟨_, stands, ?_⟩
  simpa [Piece.inner, ← whole] using form

theorem Holds.reading (holds : place.Holds tag)
    (force : tag.delimitersAfter place.delimiters = .ok after) :
    place.reading = (place.behind tag after).reading.cons (.tag (place.token tag)) := by
  obtain ⟨c, rest, behind, whole, opened, made⟩ := holds.opens
  simp only [Place.reading, Place.behind, Place.token, whole]
  exact Reading.of_text_tag opened made force

/-- What a tag stands on, up to the place behind it. -/
theorem Holds.passed (holds : place.Holds tag) (after : Delimiters) :
    ∃ body, body ≠ [] ∧ place.text = body ++ tag.rest ∧
      (place.behind tag after).offset = place.offset + Text.width body := by
  obtain ⟨behind, opened, stands⟩ := holds
  obtain ⟨inner, closed⟩ := Tag.read_suffix (Tag.read_eq_some_iff.2 stands)
  have whole : place.text =
      place.delimiters.opener.chars ++ (inner ++ place.delimiters.closer.chars) ++ tag.rest := by
    rw [opened, ← closed]
    simp only [List.append_assoc]
  refine ⟨_, List.append_ne_nil_of_left_ne_nil place.delimiters.opener.nonempty _, whole, ?_⟩
  have widths := congrArg Text.width whole
  rw [Text.width_append _ tag.rest] at widths
  simp only [Place.behind, Place.token]
  omega

/-- What was passed on the way to a place. -/
theorem Reaches.passed (reaches : Reaches first tags last) :
    ∃ passed, first.text = passed ++ last.text ∧
      last.offset = first.offset + Text.width passed := by
  induction reaches with
  | here place => exact ⟨[], rfl, rfl⟩
  | @char _ _ c _ _ _ _ _ ih =>
      obtain ⟨passed, same, offset⟩ := ih
      refine ⟨c :: passed, by rw [List.cons_append, ← same], ?_⟩
      rw [offset, Text.width, Nat.add_assoc]
  | @tag place last tag after tags holds _ _ ih =>
      obtain ⟨passed, same, offset⟩ := ih
      obtain ⟨body, _, whole, wide⟩ := holds.passed after
      refine ⟨body ++ passed, ?_, by rw [offset, wide, Text.width_append, Nat.add_assoc]⟩
      rw [whole, List.append_assoc, ← same]
      rfl

/-- Until the next change the delimiters are those in force before. -/
theorem Reaches.delimiters_eq (reaches : Reaches first tags last)
    (unchanging : ∀ token ∈ tags, token.kind ≠ .delimiters) :
    last.delimiters = first.delimiters := by
  induction reaches with
  | here place => rfl
  | char _ _ ih => exact ih unchanging
  | @tag place last tag after tags holds force _ ih =>
      obtain ⟨keeps, others⟩ := List.forall_mem_cons.1 unchanging
      have same : after = place.delimiters := by
        have plain : tag.kind ≠ .delimiters := keeps
        rwa [Tag.PutsInForce, if_neg plain] at force
      rw [ih others, Place.behind, same]

end Place

theorem Delimiters.Unnamed.kind_eq {text : List Char} {fault : Fault}
    (unnamed : Delimiters.Unnamed text fault) : fault.kind = .invalidDelimiter := by
  cases unnamed <;> rfl

/-- A source has no tokens exactly if it has a first fault, and the fault is its error. -/
theorem Token.of_source_eq_error_iff {initial : Delimiters} {source : String} {error : Error} :
    Token.ofSource initial source = .error error ↔
      ∃ located, FirstFault initial source.toList located ∧
        error = located.toError source.toList := by
  constructor
  · intro failed
    cases made : Token.ofText initial source.toList with
    | ok tokens =>
        rw [Token.ofSource, made] at failed
        contradiction
    | error located =>
        rw [Token.ofSource, made] at failed
        exact ⟨located, Token.first_fault_of_text made, (Except.error.inj failed).symm⟩
  · rintro ⟨located, fault, rfl⟩
    rw [Token.ofSource, Token.of_text_of_first_fault fault]
    rfl

/-- If it is that its delimiters are invalid, a change of them stops the reading. -/
theorem FirstFault.stops_of_invalid {initial : Delimiters} {text : List Char} {located : Located}
    (fault : FirstFault initial text located)
    (invalid : located.fault.kind = .invalidDelimiter) :
    (Place.start initial text).reading.fault = some located := by
  cases fault with
  | stopped reaches leaves stops =>
      obtain ⟨items, _, goesOn⟩ := reaches.reading
      rw [goesOn, stops.reading]
      rfl
  | broken reaches leaves holds breaks => cases breaks <;> simp [Fault.kind] at invalid
  | unclosed => simp [Fault.kind] at invalid

/-- What stops the reading behind a tag is further on, unless it is a tag that is never closed. -/
theorem Place.Holds.stopped_behind {place : Place} {tag : Tag} {after : Delimiters}
    {located : Located} (holds : place.Holds tag)
    (stopped : (place.behind tag after).reading.fault = some located)
    (invalid : located.fault.kind = .invalidDelimiter) : place.offset < located.offset := by
  obtain ⟨last, reaches, stops⟩ := Place.reaches_end (place.behind tag after)
  rw [stopped] at stops
  have beyond : place.offset < last.offset := by
    obtain ⟨body, nonempty, _, behindTag⟩ := holds.passed after
    obtain ⟨passed, _, behindRest⟩ := reaches.passed
    have wide := Text.width_pos nonempty
    omega
  cases stops with
  | unclosed => simp [Fault.kind] at invalid
  | unfit => exact beyond

/-- A change of delimiters that is closed is accepted exactly if its text, up to the equals sign
and without the blanks around it, has two words. Behind it they are the delimiters in force, until
the next change. With any other number of words the template has no tokens, and the error is that
the delimiters are invalid where the tag starts. The words cut off one by one are these words. -/
theorem change_of_delimiters_has_two_words (initial : Delimiters) (source : String)
    {tags : List Token} {place : Place} {opened : List OpenSection}
    (reaches : Place.Reaches (.start initial source.toList) tags place)
    (leaves : LeavesOpen tags opened) {lead : Blanks} {body passed rest : List Char}
    (stands : place.text = place.delimiters.opener.chars ++ (lead ++ '=' :: (body ++
      '=' :: (passed ++ (place.delimiters.closer.chars ++ rest)))))
    (unequal : '=' ∉ body) (clear : Text.EndsFirst place.delimiters.closer.chars passed) :
    let tag : Tag := ⟨.delimiters, Text.trimEnd (Text.dropBlank body), rest⟩
    let words := Text.words tag.value
    ((∃ after, tag.delimitersAfter place.delimiters = .ok after) ↔ words.length = 2) ∧
      (∀ after, tag.delimitersAfter place.delimiters = .ok after →
        words = [after.opener.chars, after.closer.chars] ∧
          place.reading = (place.behind tag after).reading.cons (.tag (place.token tag)) ∧
          ∀ others last, Place.Reaches (place.behind tag after) others last →
            (∀ token ∈ others, token.kind ≠ .delimiters) → last.delimiters = after) ∧
      (words.length ≠ 2 ↔ ∃ error, Token.ofSource initial source = .error error ∧
        error.kind = .invalidDelimiter ∧
        error.location = some (.ofOffset source.toList place.offset)) ∧
      Splitter.delimiters tag.value = .ok (tag.delimitersAfter place.delimiters) := by
  intro tag words
  have holds : place.Holds tag := Place.holds_change stands unequal clear
  have trimmed : Text.Trimmed tag.value := Text.trim_end_trimmed (List.prefix_refl _)
  have named : tag.delimitersAfter place.delimiters = Delimiters.ofWords tag.value := if_pos rfl
  have accepted : (∃ after, tag.delimitersAfter place.delimiters = .ok after) ↔
      words.length = 2 := by
    rw [named]
    exact Delimiters.names_some_iff_words trimmed
  refine ⟨accepted, ?_, ?_, by rw [named, Splitter.delimiters_eq trimmed]⟩
  · intro after force
    refine ⟨?_, holds.reading force, fun others last goesOn => goesOn.delimiters_eq⟩
    rw [named] at force
    exact (Delimiters.of_words_eq_ok_iff_words trimmed).1 force
  · constructor
    · intro other
      cases made : tag.delimitersAfter place.delimiters with
      | ok after => exact absurd (accepted.1 ⟨after, made⟩) other
      | error fault =>
          obtain ⟨change, unnamed⟩ := (Tag.delimiters_after_eq_error_iff trimmed).1 made
          have stops : place.Stops ⟨fault, place.offset⟩ := .unfit holds change unnamed
          have failed := Token.of_source_eq_error_iff.2 ⟨_, .stopped reaches leaves stops, rfl⟩
          exact ⟨_, failed, unnamed.kind_eq, rfl⟩
    · rintro ⟨error, failed, invalid, location⟩ two
      obtain ⟨after, force⟩ := accepted.2 two
      obtain ⟨located, fault, rfl⟩ := Token.of_source_eq_error_iff.1 failed
      have stopped := fault.stops_of_invalid invalid
      obtain ⟨items, _, goesOn⟩ := reaches.reading
      rw [goesOn, holds.reading force] at stopped
      have beyond := holds.stopped_behind stopped invalid
      have same : located.offset = place.offset :=
        congrArg Location.offset (Option.some.inj location)
      exact beyond.ne' same

/-- The second change is written between bars, with a space, a no-break space and a tab around its
words and a space behind them. -/
theorem second_change_has_two_words :
    let source := "\x7b\x7b=| |=\x7d\x7d|= <%\u00a0%>\t= |<%a%>"
    let bars : Delimiters :=
      ⟨⟨['|'], by simp, by simp [Text.isBlank, Text.blankCodes]⟩,
        ⟨['|'], by simp, by simp [Text.isBlank, Text.blankCodes]⟩⟩
    let first : Tag := ⟨.delimiters, "| |".toList, "|= <%\u00a0%>\t= |<%a%>".toList⟩
    let second : Tag := ⟨.delimiters, "<%\u00a0%>".toList, "<%a%>".toList⟩
    let place := (Place.start .braces source.toList).behind first bars
    Place.Reaches (.start .braces source.toList)
        [(Place.start .braces source.toList).token first] place ∧
      place.offset = 9 ∧ place.Holds second ∧
      ∃ after, second.delimitersAfter bars = .ok after ∧
        [after.opener.chars, after.closer.chars] = ["<%".toList, "%>".toList] := by
  intro source bars first second place
  have opened : Text.after? Delimiters.braces.opener.chars source.toList =
      some "=| |=\x7d\x7d|= <%\u00a0%>\t= |<%a%>".toList := by cbv
  have holds : (Place.start .braces source.toList).Holds first :=
    Place.holds_of_read opened (by cbv)
  have force : first.PutsInForce .braces bars := by
    rw [← Tag.delimiters_after_eq_ok_iff]
    rfl
  have reaches : Place.Reaches (.start .braces source.toList)
      [(Place.start .braces source.toList).token first] place := .tag holds force (.here _)
  have leaves : LeavesOpen [(Place.start .braces source.toList).token first] [] :=
    .none (.leaf rfl (by decide) .nil)
  have stands : place.text = place.delimiters.opener.chars ++
      ((⟨[], by simp⟩ : Blanks) ++ '=' :: (" <%\u00a0%>\t".toList ++
        '=' :: (" ".toList ++ (place.delimiters.closer.chars ++ "<%a%>".toList)))) := rfl
  have value : Text.trimEnd (Text.dropBlank " <%\u00a0%>\t".toList) = "<%\u00a0%>".toList := by
    decide
  have words : Text.words "<%\u00a0%>".toList = ["<%".toList, "%>".toList] := by decide
  have unequal : '=' ∉ " <%\u00a0%>\t".toList := by decide
  have clear : Text.EndsFirst place.delimiters.closer.chars " ".toList :=
    Text.ends_first_single_iff.2 (by decide)
  have holdsSecond := Place.holds_change stands unequal clear
  have two := change_of_delimiters_has_two_words .braces source reaches leaves stands unequal clear
  rw [value] at holdsSecond two
  obtain ⟨accepted, named, _⟩ := two
  obtain ⟨after, made⟩ := accepted.2 (congrArg List.length words)
  exact ⟨reaches, by decide, holdsSecond, after, made, (named after made).1.symm.trans words⟩

end Mustache

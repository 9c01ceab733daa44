import Mustache.Proofs.Printing

/-!
The forms a tag may have. Behind its opener stand its sigil and its value, with blanks around
them that do not count, and the first closing text behind them ends it. Reading finds a tag
exactly where one of the forms stands. A change of delimiters names two words with blanks
between them; any other number of words names none.
-/

namespace Mustache

namespace Text

theorem cut_first {needle text before suffix : List Char}
    (found : cut? needle text = some (before, suffix)) {earlier later : List Char}
    (occurs : text = earlier ++ (needle ++ later)) : before.length ≤ earlier.length := by
  induction text generalizing before earlier with
  | nil =>
      simp only [cut?, Option.map_eq_some_iff, Prod.mk.injEq] at found
      obtain ⟨_, _, rfl, _⟩ := found
      exact Nat.zero_le _
  | cons c rest ih =>
      simp only [cut?] at found
      split at found
      next =>
        simp only [Option.some.injEq, Prod.mk.injEq] at found
        rw [← found.1]
        exact Nat.zero_le _
      next missing =>
        simp only [Option.map_eq_some_iff, Prod.mk.injEq] at found
        obtain ⟨pair, cutRest, rfl, rfl⟩ := found
        cases earlier with
        | nil =>
            have begins : after? needle (c :: rest) = some later := after_eq_some_iff.2 occurs
            rw [begins] at missing
            contradiction
        | cons first earlier =>
            have sooner := ih cutRest (List.cons.inj occurs).2
            simp only [List.length_cons]
            omega

/-- What is cut off before a needle is clear of it. -/
theorem ends_first_of_cut {needle text before suffix : List Char}
    (found : cut? needle text = some (before, suffix)) : EndsFirst needle before := by
  intro earlier later same
  have occurs : text = earlier ++ (needle ++ (later ++ suffix)) := by
    rw [cut_append found, ← List.append_assoc, same]
    simp only [List.append_assoc]
  have sooner := cut_first found occurs
  have lengths := congrArg List.length same
  simp only [List.length_append] at lengths
  exact List.length_eq_zero_iff.1 (by omega)

theorem trim_end_split (text : List Char) :
    ∃ blanks : List Char, (∀ c ∈ blanks, isBlank c = true) ∧ text = trimEnd text ++ blanks := by
  induction text with
  | nil => exact ⟨[], by simp, rfl⟩
  | cons c rest ih =>
      obtain ⟨blanks, blank, same⟩ := ih
      rcases trim_end_cons c rest with ⟨empty, behind, own⟩ | ⟨kept, _⟩
      · rw [behind, List.nil_append] at same
        exact ⟨c :: blanks, List.forall_mem_cons.2 ⟨own, blank⟩, by rw [empty, same]; rfl⟩
      · exact ⟨blanks, blank, by rw [kept, List.cons_append, ← same]⟩

theorem drop_blank_split (text : List Char) :
    ∃ blanks : List Char, (∀ c ∈ blanks, isBlank c = true) ∧ text = blanks ++ dropBlank text := by
  refine ⟨text.takeWhile isBlank, ?_, List.takeWhile_append_dropWhile.symm⟩
  intro c among
  exact List.mem_takeWhile_imp among

theorem ends_first_single_iff {mark : Char} {text : List Char} :
    EndsFirst [mark] text ↔ mark ∉ text := by
  constructor
  · intro clear among
    obtain ⟨before, after, rfl⟩ := List.append_of_mem among
    have nothing := clear before (after ++ [mark]) (by simp)
    simp at nothing
  · intro missing before after same
    rcases List.eq_nil_or_concat after with rfl | ⟨body, last, rfl⟩
    · rfl
    · rw [List.concat_eq_append, ← List.append_assoc] at same
      have inside := (List.append_inj' same rfl).1
      exact absurd (by simp [inside]) missing

end Text

/-! ### Where a tag stands -/

namespace Tag

/-- The tag stands at the beginning of the text, which is what follows an opener. A name begins
with no sigil. The value of a change of delimiters ends at an equals sign, and what is between
that sign and the closer does not count. -/
inductive Stands (closer : List Char) : List Char → Tag → Prop
  | marked {kind : TokenKind} {value rest : List Char} (padding : Padding)
      (sigil : kind.sigil ≠ []) (trimmed : Text.Trimmed value)
      (clear : Text.EndsFirst closer (value ++ padding.behindValue)) :
      Stands closer (Piece.inner kind.sigil value [] padding ++ (closer ++ rest))
        ⟨kind, value, rest⟩
  | name {value rest : List Char} (padding : Padding)
      (unmarked : ∀ c ∈ (value ++ closer).head?, c ∉ sigils) (trimmed : Text.Trimmed value)
      (clear : Text.EndsFirst closer (value ++ padding.behindValue)) :
      Stands closer (Piece.inner [] value [] padding ++ (closer ++ rest)) ⟨.escaped, value, rest⟩
  | braced {value rest : List Char} (padding : Padding) (trimmed : Text.Trimmed value)
      (clear : Text.EndsFirst ('\x7d' :: closer) (value ++ padding.behindValue)) :
      Stands closer (Piece.inner ['\x7b'] value ['\x7d'] padding ++ (closer ++ rest))
        ⟨.unescaped, value, rest⟩
  | change {value passed rest : List Char} (padding : Padding) (trimmed : Text.Trimmed value)
      (unequal : '=' ∉ value) (clear : Text.EndsFirst closer passed) :
      Stands closer (Piece.inner ['='] value ('=' :: passed) padding ++ (closer ++ rest))
        ⟨.delimiters, value, rest⟩

theorem ending_in_split {kind : TokenKind} {closing body : List Char} {tag : Tag}
    (made : endingIn kind closing body = some tag) :
    ∃ before behind : Blanks, body = before ++ (tag.value ++ (behind ++ (closing ++ tag.rest))) ∧
      Text.Trimmed tag.value ∧ Text.EndsFirst closing (tag.value ++ behind) := by
  simp only [endingIn, Option.map_eq_some_iff] at made
  obtain ⟨⟨front, rest⟩, found, rfl⟩ := made
  have whole := Text.cut_append found
  obtain ⟨before, blankBefore, leads⟩ := Text.drop_blank_split body
  obtain ⟨behind, blankBehind, trails⟩ := Text.trim_end_split front
  have parts : front ++ (closing ++ rest) =
      Text.trimEnd front ++ (behind ++ (closing ++ rest)) := by
    rw [← List.append_assoc (Text.trimEnd front), ← trails]
  refine ⟨⟨before, blankBefore⟩, ⟨behind, blankBehind⟩, ?_, ?_, ?_⟩
  · rw [← parts, ← whole]
    exact leads
  · exact Text.trim_end_trimmed ⟨_, whole.symm⟩
  · rw [← trails]
    exact Text.ends_first_of_cut found

/-- A change of delimiters is read up to its equals sign, and from there up to the closer. -/
theorem delimiter_change_eq (closer body : List Char) :
    delimiterChange closer body =
      (endingIn .delimiters ['='] body).bind fun marked =>
        (Text.cut? closer marked.rest).map fun pair => { marked with rest := pair.2 } := by
  simp only [delimiterChange, endingIn]
  cases Text.cut? ['='] (Text.dropBlank body) with
  | none => rfl
  | some marked =>
      obtain ⟨value, afterMark⟩ := marked
      cases found : Text.cut? closer afterMark <;> simp [found]

theorem kind_of_sigil_some {c : Char} {kind : TokenKind} (sigil : kindOfSigil c = some kind) :
    kind.sigil = [c] := by
  simp only [kindOfSigil] at sigil
  split at sigil <;> cases sigil <;> rfl

theorem sigil_of_no_kind {c : Char} (unequal : c ≠ '=') (unbraced : c ≠ '\x7b')
    (unmarked : kindOfSigil c = none) : c ∉ sigils := by
  intro among
  simp only [sigils, List.mem_cons, List.not_mem_nil, or_false] at among
  rcases among with rfl | rfl | rfl | rfl | rfl | rfl | rfl | rfl
  all_goals contradiction

/-- Behind leading blanks the value stands first, or the closing text if the value is empty. -/
theorem drop_blank_around (before behind : Blanks) {value closing : List Char} (rest : List Char)
    (trimmed : Text.Trimmed value) (nonempty : closing ≠ [])
    (closes : ∀ c ∈ closing.head?, Text.isBlank c = false) :
    ∃ first body, first ∈ (value ++ closing).head? ∧
      Text.dropBlank (before ++ (value ++ (behind ++ (closing ++ rest)))) = first :: body := by
  cases value with
  | nil =>
      obtain ⟨first, more, rfl⟩ := List.exists_cons_of_ne_nil nonempty
      have padding : ∀ c ∈ (before : List Char) ++ behind, Text.isBlank c = true :=
        List.forall_mem_append.2 ⟨before.2, behind.2⟩
      refine ⟨first, more ++ rest, rfl, ?_⟩
      rw [List.nil_append, ← List.append_assoc]
      exact Text.drop_blank_padded padding (by simpa using closes)
  | cons first more =>
      refine ⟨first, more ++ (behind ++ (closing ++ rest)), rfl, ?_⟩
      exact Text.drop_blank_padded before.2 (by simpa using trimmed.1)

/-- Without a sigil a tag is a name, whatever blanks stand in front. -/
theorem read_name {closer text body : List Char} {first : Char} (unmarked : first ∉ sigils)
    (shape : Text.dropBlank text = first :: body) :
    read closer text = endingIn .escaped closer text := by
  obtain ⟨lead, blank, leads⟩ := Text.drop_blank_split text
  have solid : Text.isBlank first = false :=
    Text.drop_blank_head_solid text first (by simp [shape])
  have again : Text.dropBlank (first :: body) = first :: body :=
    List.dropWhile_cons_of_neg (by simp [solid])
  have reads := read_unmarked unmarked solid closer body ⟨lead, blank⟩
  have same : lead ++ first :: body = text := by rw [← shape, ← leads]
  rw [same] at reads
  rw [reads]
  simp only [endingIn, shape, again]

theorem read_change (closer body : List Char) (before : Blanks) :
    read closer (before ++ '=' :: body) = delimiterChange closer body := by
  have solid : ∀ c ∈ ('=' :: body).head?, Text.isBlank c = false := by
    simp [Text.isBlank, Text.blankCodes]
  rw [read, Text.drop_blank_padded before.2 solid]
  rfl

/-- Where a tag is read, one of the forms stands. -/
theorem stands_of_read {delimiters : Delimiters} {text : List Char} {tag : Tag}
    (made : read delimiters.closer.chars text = some tag) :
    Stands delimiters.closer.chars text tag := by
  have closes : ∀ c ∈ delimiters.closer.chars.head?, Text.isBlank c = false :=
    fun c head => delimiters.closer.solid c (List.mem_of_head? head)
  obtain ⟨lead, blank, leads⟩ := Text.drop_blank_split text
  have firstSolid := Text.drop_blank_head_solid text
  simp only [read] at made
  split at made
  · contradiction
  next c body shape =>
    rw [shape] at leads firstSolid
    have solid : Text.isBlank c = false := firstSolid c rfl
    split at made
    next change =>
      rw [delimiter_change_eq] at made
      simp only [Option.bind_eq_some_iff, Option.map_eq_some_iff] at made
      obtain ⟨marked, ends, ⟨passed, rest⟩, closed, rfl⟩ := made
      obtain ⟨before, behind, parts, trimmed, clear⟩ := ending_in_split ends
      have unequal : '=' ∉ marked.value := fun among =>
        Text.ends_first_single_iff.1 clear (List.mem_append_left _ among)
      have form : Stands delimiters.closer.chars _ ⟨.delimiters, marked.value, rest⟩ :=
        .change ⟨⟨lead, blank⟩, before, behind⟩ trimmed unequal (Text.ends_first_of_cut closed)
      have kind : marked.kind = .delimiters := ending_in_kind ends
      rw [Text.cut_append closed] at parts
      simpa [Piece.inner, leads, change, parts, kind] using form
    next unequal =>
      split at made
      next brace =>
        obtain ⟨before, behind, parts, trimmed, clear⟩ := ending_in_split made
        have form : Stands delimiters.closer.chars _ ⟨.unescaped, tag.value, tag.rest⟩ :=
          .braced ⟨⟨lead, blank⟩, before, behind⟩ trimmed clear
        have kind : tag.kind = .unescaped := ending_in_kind made
        obtain ⟨_, value, rest⟩ := tag
        cases kind
        simpa [Piece.inner, leads, brace, parts] using form
      next unbraced =>
        split at made
        next kind sigil =>
          obtain ⟨before, behind, parts, trimmed, clear⟩ := ending_in_split made
          have written := kind_of_sigil_some sigil
          have form : Stands delimiters.closer.chars _ ⟨kind, tag.value, tag.rest⟩ :=
            .marked ⟨⟨lead, blank⟩, before, behind⟩ (by simp [written]) trimmed clear
          obtain rfl : tag.kind = kind := ending_in_kind made
          simpa [Piece.inner, leads, written, parts] using form
        next unmarked =>
          obtain ⟨before, behind, parts, trimmed, clear⟩ := ending_in_split made
          obtain ⟨front, more, head, begins⟩ := drop_blank_around before behind tag.rest trimmed
            delimiters.closer.nonempty closes
          have own : Text.dropBlank (c :: body) = c :: body :=
            List.dropWhile_cons_of_neg (by simp [solid])
          rw [← parts, own] at begins
          obtain ⟨rfl, _⟩ := List.cons.inj begins
          have firstUnmarked : ∀ first ∈ (tag.value ++ delimiters.closer.chars).head?,
              first ∉ sigils := by
            intro first among
            obtain rfl := Option.some.inj (head.symm.trans among)
            exact sigil_of_no_kind unequal unbraced unmarked
          have form : Stands delimiters.closer.chars _ ⟨.escaped, tag.value, tag.rest⟩ :=
            .name ⟨⟨lead, blank⟩, before, behind⟩ firstUnmarked trimmed clear
          have kind : tag.kind = .escaped := ending_in_kind made
          obtain ⟨_, value, rest⟩ := tag
          cases kind
          simpa [Piece.inner, leads, parts] using form

/-- Where one of the forms stands, its tag is read. -/
theorem read_of_stands {delimiters : Delimiters} {text : List Char} {tag : Tag}
    (stands : Stands delimiters.closer.chars text tag) :
    read delimiters.closer.chars text = some tag := by
  have closes : ∀ c ∈ delimiters.closer.chars.head?, Text.isBlank c = false :=
    fun c head => delimiters.closer.solid c (List.mem_of_head? head)
  cases stands with
  | @marked kind value rest padding sigil trimmed clear =>
      simp only [Piece.inner, List.append_assoc, List.nil_append]
      rw [read_marked sigil]
      exact ending_in_padded _ _ _ delimiters.closer.nonempty closes trimmed clear rest
  | @name value rest padding unmarked trimmed clear =>
      let before : Blanks := ⟨padding.beforeSigil ++ padding.beforeValue,
        List.forall_mem_append.2 ⟨padding.beforeSigil.2, padding.beforeValue.2⟩⟩
      have whole : Piece.inner [] value [] padding ++ (delimiters.closer.chars ++ rest) =
          before ++ (value ++ (padding.behindValue ++ (delimiters.closer.chars ++ rest))) := by
        simp only [Piece.inner, before, List.append_assoc, List.nil_append]
      obtain ⟨first, body, head, shape⟩ := drop_blank_around before padding.behindValue rest
        trimmed delimiters.closer.nonempty closes
      rw [whole, read_name (unmarked first head) shape]
      exact ending_in_padded _ _ _ delimiters.closer.nonempty closes trimmed clear rest
  | @braced value rest padding trimmed clear =>
      simp only [Piece.inner, List.append_assoc, List.cons_append, List.nil_append]
      rw [read_braced]
      exact ending_in_padded _ _ _ (List.cons_ne_nil _ _) (by simp [Text.isBlank, Text.blankCodes])
        trimmed clear rest
  | @change value passed rest padding trimmed unequal clear =>
      have solid : Text.isBlank '=' = false := by simp [Text.isBlank, Text.blankCodes]
      have missing : '=' ∉ value ++ (padding.behindValue : List Char) := by
        intro among
        rcases List.mem_append.1 among with inside | behind
        · exact unequal inside
        · simp [padding.behindValue.2 _ behind] at solid
      have ends := ending_in_padded .delimiters padding.beforeValue padding.behindValue
        (List.cons_ne_nil '=' []) (by simpa using solid) trimmed
        (Text.ends_first_single_iff.2 missing) (passed ++ (delimiters.closer.chars ++ rest))
      simp only [Piece.inner, List.append_assoc, List.cons_append, List.nil_append] at ends ⊢
      rw [read_change, delimiter_change_eq, ends]
      simp only [Option.bind_some, Text.cut_of_ends_first clear, Option.map_some]

/-- The spec of reading a tag. -/
theorem read_eq_some_iff {delimiters : Delimiters} {text : List Char} {tag : Tag} :
    read delimiters.closer.chars text = some tag ↔ Stands delimiters.closer.chars text tag :=
  ⟨stands_of_read, read_of_stands⟩

end Tag

/-! ### The words of a change of delimiters -/

namespace Text

theorem first_word_split (text : List Char) :
    (∀ c ∈ firstWord text, isBlank c = false) ∧
      ∃ blanks : Blanks, text = firstWord text ++ (blanks ++ afterFirstWord text) ∧
        ((blanks : List Char) = [] → afterFirstWord text = []) := by
  have parts : text = firstWord text ++ text.dropWhile fun c => !isBlank c :=
    List.takeWhile_append_dropWhile.symm
  have begins := List.head?_dropWhile_not (fun c => !isBlank c) text
  refine ⟨fun c among => by simpa using List.mem_takeWhile_imp among, ?_⟩
  obtain ⟨blanks, blank, behind⟩ := drop_blank_split (text.dropWhile fun c => !isBlank c)
  refine ⟨⟨blanks, blank⟩, by rw [afterFirstWord, ← behind]; exact parts, ?_⟩
  rintro rfl
  -- what follows the word begins with a blank, if anything follows it
  rw [List.nil_append] at behind
  rw [afterFirstWord, ← behind]
  cases rest : text.dropWhile fun c => !isBlank c with
  | nil => rfl
  | cons first more =>
      have solid := drop_blank_head_solid (text.dropWhile fun c => !isBlank c) first
        (by rw [← behind, rest]; rfl)
      simp [rest, solid] at begins

theorem first_word_of_parts {word rest : List Char} {gap : Blanks}
    (solid : ∀ c ∈ word, isBlank c = false) (apart : (gap : List Char) ≠ [])
    (begins : ∀ c ∈ rest.head?, isBlank c = false) :
    firstWord (word ++ (gap ++ rest)) = word ∧ afterFirstWord (word ++ (gap ++ rest)) = rest := by
  have inked : ∀ c ∈ word, (!isBlank c) = true := by simpa using solid
  obtain ⟨first, more, blank⟩ := List.exists_cons_of_ne_nil apart
  have stops : (!isBlank first) = false := by simpa using gap.2 first (by simp [blank])
  have dropped : dropBlank ((gap : List Char) ++ rest) = rest := drop_blank_padded gap.2 begins
  rw [firstWord, afterFirstWord, List.takeWhile_append_of_pos inked,
    List.dropWhile_append_of_pos inked]
  rw [blank] at dropped ⊢
  simp only [List.cons_append] at dropped ⊢
  rw [List.takeWhile_cons_of_neg (by simp [stops]), List.dropWhile_cons_of_neg (by simp [stops])]
  exact ⟨List.append_nil word, dropped⟩

end Text

namespace Delimiters

theorem of_chars_eq_ok_iff {opener closer : List Char} {delimiters : Delimiters} :
    ofChars opener closer = .ok delimiters ↔
      delimiters.opener.chars = opener ∧ delimiters.closer.chars = closer := by
  rw [← Delimiter.of_chars_eq_ok_iff, ← Delimiter.of_chars_eq_ok_iff]
  obtain ⟨first, second⟩ := delimiters
  simp only [ofChars]
  cases Delimiter.ofChars opener with
  | error _ => simp [bind, Except.bind]
  | ok _ =>
      cases Delimiter.ofChars closer with
      | error _ => simp [bind, Except.bind]
      | ok _ => simp [bind, Except.bind, pure, Except.pure]

/-- The text is the opener, blanks and the closer. -/
def Named (delimiters : Delimiters) (text : List Char) : Prop :=
  ∃ gap : Blanks, (gap : List Char) ≠ [] ∧
    text = delimiters.opener.chars ++ (gap ++ delimiters.closer.chars)

/-- Why a text without blanks at its ends names no delimiters: it holds a word too few, or blanks
behind its second word. -/
inductive Unnamed : List Char → Fault → Prop
  | lacking {text : List Char} (solid : ∀ c ∈ text, Text.isBlank c = false) :
      Unnamed text .emptyDelimiter
  | crowded {word rest : List Char} {gap : Blanks} (nonempty : word ≠ [])
      (solid : ∀ c ∈ word, Text.isBlank c = false) (apart : (gap : List Char) ≠ [])
      (begins : ∀ c ∈ rest.head?, Text.isBlank c = false)
      (blank : rest.any Text.isBlank = true) :
      Unnamed (word ++ (gap ++ rest)) (.blankInDelimiter (String.ofList rest))

theorem of_words_eq_ok_iff {text : List Char} {delimiters : Delimiters} :
    ofWords text = .ok delimiters ↔ delimiters.Named text := by
  rw [ofWords, of_chars_eq_ok_iff]
  constructor
  · rintro ⟨opener, closer⟩
    obtain ⟨_, gap, parts, ends⟩ := Text.first_word_split text
    refine ⟨gap, ?_, by rw [opener, closer]; exact parts⟩
    intro empty
    exact delimiters.closer.nonempty (closer.trans (ends empty))
  · rintro ⟨gap, apart, rfl⟩
    have begins : ∀ c ∈ delimiters.closer.chars.head?, Text.isBlank c = false :=
      fun c head => delimiters.closer.solid c (List.mem_of_head? head)
    obtain ⟨word, rest⟩ := Text.first_word_of_parts delimiters.opener.solid apart begins
    exact ⟨word.symm, rest.symm⟩

theorem of_words_of_unnamed {text : List Char} {fault : Fault} (unnamed : Unnamed text fault) :
    ofWords text = .error fault := by
  cases unnamed with
  | lacking solid =>
      have inked : ∀ c ∈ text, (!Text.isBlank c) = true := by simpa using solid
      have word : Text.firstWord text = text := List.takeWhile_eq_self_iff.2 inked
      have rest : Text.afterFirstWord text = [] := by
        rw [Text.afterFirstWord, List.dropWhile_eq_nil_iff.2 inked]
        rfl
      rw [ofWords, word, rest]
      by_cases empty : text = []
      · simp [ofChars, Delimiter.ofChars, empty, bind, Except.bind]
      · have fits : Delimiter.ofChars text = .ok ⟨text, empty, solid⟩ :=
          Delimiter.of_chars_eq_ok_iff.2 rfl
        rw [ofChars, fits]
        rfl
  | @crowded word rest gap nonempty solid apart begins blank =>
      obtain ⟨first, second⟩ := Text.first_word_of_parts solid apart begins
      have fits : Delimiter.ofChars word = .ok ⟨word, nonempty, solid⟩ :=
        Delimiter.of_chars_eq_ok_iff.2 rfl
      have filled : rest ≠ [] := by
        rintro rfl
        simp at blank
      rw [ofWords, first, second, ofChars, fits]
      simp only [bind, Except.bind, Delimiter.ofChars, dif_neg filled, dif_pos blank]

theorem unnamed_of_words {text : List Char} {fault : Fault} (trimmed : Text.Trimmed text)
    (failed : ofWords text = .error fault) : Unnamed text fault := by
  suffices fails : ∃ other, Unnamed text other by
    obtain ⟨other, unnamed⟩ := fails
    rw [of_words_of_unnamed unnamed] at failed
    rw [← Except.error.inj failed]
    exact unnamed
  obtain ⟨solid, gap, parts, ends⟩ := Text.first_word_split text
  cases rest : Text.afterFirstWord text with
  | nil =>
      rw [rest, List.append_nil] at parts
      refine ⟨_, .lacking ?_⟩
      rcases List.eq_nil_or_concat (gap : List Char) with noneBehind | ⟨body, last, behind⟩
      · rw [parts, noneBehind, List.append_nil]
        exact solid
      · have ending : last ∈ text.getLast? := by rw [parts, behind]; simp
        have blank := gap.2 last (by simp [behind])
        rw [trimmed.2 last ending] at blank
        contradiction
  | cons begin more =>
      have apart : (gap : List Char) ≠ [] := fun empty => by simp [ends empty] at rest
      have wordNonempty : Text.firstWord text ≠ [] := by
        intro empty
        obtain ⟨first, behind, shape⟩ := List.exists_cons_of_ne_nil apart
        have blank := gap.2 first (by simp [shape])
        rw [empty, shape] at parts
        rw [trimmed.1 first (by rw [parts]; rfl)] at blank
        contradiction
      have begins : ∀ c ∈ (Text.afterFirstWord text).head?, Text.isBlank c = false :=
        Text.drop_blank_head_solid _
      cases crowded : (Text.afterFirstWord text).any Text.isBlank with
      | true =>
          have unnamed := Unnamed.crowded wordNonempty solid apart begins crowded
          rw [← parts] at unnamed
          exact ⟨_, unnamed⟩
      | false =>
          have closerSolid : ∀ c ∈ Text.afterFirstWord text, Text.isBlank c = false := by
            simpa using crowded
          have filled : Text.afterFirstWord text ≠ [] := by simp [rest]
          have named : Named ⟨⟨_, wordNonempty, solid⟩, ⟨_, filled, closerSolid⟩⟩ text :=
            ⟨gap, apart, parts⟩
          rw [of_words_eq_ok_iff.2 named] at failed
          contradiction

theorem of_words_eq_error_iff {text : List Char} {fault : Fault} (trimmed : Text.Trimmed text) :
    ofWords text = .error fault ↔ Unnamed text fault :=
  ⟨unnamed_of_words trimmed, of_words_of_unnamed⟩

end Delimiters

theorem Tag.Stands.trimmed {closer text : List Char} {tag : Tag} (stands : Stands closer text tag) :
    Text.Trimmed tag.value := by
  cases stands <;> assumption

end Mustache

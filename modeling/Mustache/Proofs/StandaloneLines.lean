import Mustache.Proofs.LineBuffer

/-!
Which text a template keeps. The items of a template are cut behind every line feed of
the text. A finished line that holds tags, none that puts out a value, and no text but
blanks is standalone and gives up its text; every other line keeps all of it, and so
does the last one, which nothing finishes. The tokens are the items kept, in order, each
longest run of characters among them as one text.
-/

namespace Mustache

/-- The items up to a line feed of the text, and that line feed. -/
def FinishedLine (line : List Item) : Prop :=
  ∃ body offset, line = body ++ [.char offset '\n'] ∧ ∀ item ∈ body, item.isLineFeed = false

/-- A line of tags that put out nothing, with only blanks between them. -/
structure Standalone (line : List Item) : Prop where
  tagged : ∃ token, .tag token ∈ line
  silent : ∀ token, .tag token ∈ line → token.kind ≠ .escaped ∧ token.kind ≠ .unescaped
  blank : ∀ offset c, .char offset c ∈ line → Text.isBlank c = true

theorem TokenKind.interpolates_eq_false_iff {kind : TokenKind} :
    kind.interpolates = false ↔ kind ≠ .escaped ∧ kind ≠ .unescaped := by
  cases kind <;> simp [TokenKind.interpolates]

theorem any_is_tag_iff {line : List Item} :
    line.any Item.isTag = true ↔ ∃ token, .tag token ∈ line := by
  rw [List.any_eq_true]
  constructor
  · rintro ⟨item, member, isTag⟩
    cases item with
    | tag token => exact ⟨token, member⟩
    | char offset c => simp [Item.isTag] at isTag
  · rintro ⟨token, member⟩
    exact ⟨.tag token, member, rfl⟩

theorem any_is_ink_eq_false_iff {line : List Item} :
    line.any Item.isInk = false ↔
      (∀ token, .tag token ∈ line → token.kind ≠ .escaped ∧ token.kind ≠ .unescaped) ∧
        ∀ offset c, .char offset c ∈ line → Text.isBlank c = true := by
  rw [List.any_eq_false]
  constructor
  · intro plain
    constructor
    · intro token member
      have silent := plain _ member
      simp only [Item.isInk, Bool.not_eq_true] at silent
      exact TokenKind.interpolates_eq_false_iff.1 silent
    · intro offset c member
      have blank := plain _ member
      simpa [Item.isInk] using blank
  · rintro ⟨silent, blank⟩ item member
    cases item with
    | tag token =>
        simpa [Item.isInk] using TokenKind.interpolates_eq_false_iff.2 (silent token member)
    | char offset c => simp [Item.isInk, blank offset c member]

theorem standalone_iff {line : List Item} :
    Standalone line ↔ line.any Item.isTag = true ∧ line.any Item.isInk = false := by
  rw [any_is_tag_iff, any_is_ink_eq_false_iff]
  constructor
  · intro standalone
    exact ⟨standalone.tagged, standalone.silent, standalone.blank⟩
  · rintro ⟨tagged, silent, blank⟩
    exact ⟨tagged, silent, blank⟩

instance (line : List Item) : Decidable (Standalone line) :=
  decidable_of_iff _ standalone_iff.symm

/-- What a finished line leaves: of a standalone line its tags, of any other line all. -/
def keptOf (line : List Item) : List Item :=
  if Standalone line then line.filter Item.isTag else line

namespace OpenLine

/-- The line being read is described by its items alone: the two marks say what is among them. -/
theorem add_all (line : OpenLine) (body : List Item) :
    body.foldl add line =
      { items := body.reverse ++ line.items
        tagged := line.tagged || body.any Item.isTag
        inked := line.inked || body.any Item.isInk } := by
  induction body generalizing line with
  | nil => simp
  | cons item rest ih => simp [ih, add, Bool.or_assoc]

theorem finish_add_all (line : List Item) : (line.foldl add {}).finish = keptOf line := by
  simp only [add_all, finish, keptOf, standalone_iff, Bool.false_or, List.append_nil,
    Bool.and_eq_true, Bool.not_eq_true', List.filter_reverse, List.reverse_reverse]

end OpenLine

theorem settle_lines_body (line : OpenLine) (body rest : List Item)
    (unbroken : ∀ item ∈ body, item.isLineFeed = false) :
    settleLines line (body ++ rest) = settleLines (body.foldl OpenLine.add line) rest := by
  induction body generalizing line with
  | nil => rfl
  | cons item body ih =>
      have later := ih (line.add item) fun other member => unbroken other (by simp [member])
      simp [settleLines, unbroken item (by simp), later]

theorem settle_lines_finished {line : List Item} (finished : FinishedLine line)
    (rest : List Item) : settleLines {} (line ++ rest) = keptOf line ++ settleLines {} rest := by
  obtain ⟨body, offset, rfl, unbroken⟩ := finished
  have whole : (body.foldl OpenLine.add {}).add (Item.char offset '\n') =
      (body ++ [Item.char offset '\n']).foldl OpenLine.add {} := by
    rw [List.foldl_append]
    rfl
  rw [List.append_assoc, settle_lines_body {} body _ unbroken, ← OpenLine.finish_add_all, ← whole]
  simp [settleLines, Item.isLineFeed]

theorem settle_lines_eq_kept (lines : List (List Item)) (last : List Item)
    (finished : ∀ line ∈ lines, FinishedLine line)
    (unbroken : ∀ item ∈ last, item.isLineFeed = false) :
    settleLines {} (lines.flatten ++ last) = lines.flatMap keptOf ++ last := by
  induction lines with
  | nil =>
      have settled := settle_lines_body {} last [] unbroken
      rw [List.append_nil] at settled
      simp [settled, settleLines, OpenLine.add_all]
  | cons line lines ih =>
      have later := ih fun other member => finished other (by simp [member])
      rw [List.flatten_cons, List.append_assoc,
        settle_lines_finished (finished line (by simp)), later, List.flatMap_cons,
        List.append_assoc]

theorem exists_lines (items : List Item) :
    ∃ (lines : List (List Item)) (last : List Item), items = lines.flatten ++ last ∧
      (∀ line ∈ lines, FinishedLine line) ∧ ∀ item ∈ last, item.isLineFeed = false := by
  induction items with
  | nil => exact ⟨[], [], rfl, by simp, by simp⟩
  | cons item rest ih =>
      obtain ⟨lines, last, rfl, finished, unbroken⟩ := ih
      by_cases ends : item.isLineFeed = true
      · obtain ⟨offset, rfl⟩ : ∃ offset, item = .char offset '\n' := by
          cases item with
          | tag token => simp [Item.isLineFeed] at ends
          | char offset c => exact ⟨offset, by simpa [Item.isLineFeed] using ends⟩
        have single : FinishedLine [Item.char offset '\n'] := ⟨[], offset, rfl, by simp⟩
        exact ⟨[.char offset '\n'] :: lines, last, rfl,
          List.forall_mem_cons.2 ⟨single, finished⟩, unbroken⟩
      · have inside : item.isLineFeed = false := by simpa using ends
        cases lines with
        | nil =>
            exact ⟨[], item :: last, rfl, by simp, List.forall_mem_cons.2 ⟨inside, unbroken⟩⟩
        | cons line lines =>
            obtain ⟨first, others⟩ := List.forall_mem_cons.1 finished
            obtain ⟨body, offset, rfl, solid⟩ := first
            have longer : FinishedLine (item :: (body ++ [.char offset '\n'])) :=
              ⟨item :: body, offset, rfl, List.forall_mem_cons.2 ⟨inside, solid⟩⟩
            exact ⟨(item :: (body ++ [.char offset '\n'])) :: lines, last, rfl,
              List.forall_mem_cons.2 ⟨longer, others⟩, unbroken⟩

abbrev PlacedChar := Nat × Char

def PlacedChar.toItem (placed : PlacedChar) : Item := .char placed.1 placed.2

/-- The text token of a run of characters, from where its first begins to where its last ends. -/
def Token.ofRun (first : PlacedChar) (more : List PlacedChar) : Token :=
  let last := (first :: more).getLast (List.cons_ne_nil first more)
  ⟨.text, String.ofList ((first :: more).map Prod.snd), ⟨first.1, last.1 + last.2.utf8Size⟩⟩

/-- The tokens say the items one by one, but each longest run of characters as one text. -/
inductive Spelled : List Item → List Token → Prop
  | nil : Spelled [] []
  | tag {token : Token} {items : List Item} {tokens : List Token} (behind : Spelled items tokens) :
      Spelled (.tag token :: items) (token :: tokens)
  | text (first : PlacedChar) (more : List PlacedChar) {items : List Item} {tokens : List Token}
      (longest : ∀ placed : PlacedChar, items.head? ≠ some placed.toItem)
      (behind : Spelled items tokens) :
      Spelled ((first :: more).map PlacedChar.toItem ++ items) (Token.ofRun first more :: tokens)

theorem Token.cons_char_of_run (offset : Nat) (c : Char) (first : PlacedChar)
    (more : List PlacedChar) (tokens : List Token) :
    Token.consChar offset c (Token.ofRun first more :: tokens) =
      Token.ofRun (offset, c) (first :: more) :: tokens := by
  simp [Token.consChar, Token.ofRun]

theorem Token.cons_char_apart (offset : Nat) (c : Char) {tokens : List Token}
    (apart : ∀ token, tokens.head? = some token → token.kind ≠ .text) :
    Token.consChar offset c tokens = Token.ofRun (offset, c) [] :: tokens := by
  cases tokens with
  | nil => rfl
  | cons token rest =>
      obtain ⟨kind, value, span⟩ := token
      have tagged : kind ≠ .text := apart ⟨kind, value, span⟩ rfl
      cases kind with
      | text => contradiction
      | _ => rfl

theorem Token.of_items_run (first : PlacedChar) (more : List PlacedChar) {items : List Item}
    (apart : ∀ token, (Token.ofItems items).head? = some token → token.kind ≠ .text) :
    Token.ofItems ((first :: more).map PlacedChar.toItem ++ items) =
      Token.ofRun first more :: Token.ofItems items := by
  induction more generalizing first with
  | nil => exact Token.cons_char_apart first.1 first.2 apart
  | cons second more ih =>
      rw [List.map_cons, List.cons_append, ← Token.cons_char_of_run, ← ih second]
      rfl

theorem spelled_of_items {items : List Item}
    (kinds : ∀ token, .tag token ∈ items → token.kind ≠ .text) :
    Spelled items (Token.ofItems items) := by
  induction items with
  | nil => exact .nil
  | cons item rest ih =>
      have spelled := ih fun token member => kinds token (List.mem_cons_of_mem item member)
      cases item with
      | tag token => exact .tag spelled
      | char offset c =>
          rw [Token.ofItems]
          generalize Token.ofItems rest = tokens at spelled
          cases spelled with
          | nil => exact .text (offset, c) [] (by simp) .nil
          | @tag token items tokens behind =>
              rw [Token.cons_char_apart offset c (by simpa using kinds token (by simp))]
              exact .text (offset, c) [] (by simp [PlacedChar.toItem])
                (.tag behind)
          | @text first more items tokens longest behind =>
              rw [Token.cons_char_of_run]
              exact .text (offset, c) (first :: more) longest behind

/-- Tokens spell the items in one way only. -/
theorem spelled_iff {items : List Item} {tokens : List Token}
    (kinds : ∀ token, .tag token ∈ items → token.kind ≠ .text) :
    Spelled items tokens ↔ tokens = Token.ofItems items := by
  constructor
  · intro spelled
    induction spelled with
    | nil => rfl
    | tag _ ih =>
        rw [Token.ofItems, ih fun token member => kinds token (List.mem_cons_of_mem _ member)]
    | @text first more items tokens longest _ ih =>
        have later : ∀ token, .tag token ∈ items → token.kind ≠ .text :=
          fun token member => kinds token (List.mem_append_right _ member)
        rw [ih later, Token.of_items_run]
        intro token head
        cases items with
        | nil => simp [Token.ofItems] at head
        | cons item rest =>
            cases item with
            | char offset c => exact absurd rfl (longest (offset, c))
            | tag other =>
                obtain rfl : other = token := by simpa [Token.ofItems] using head
                exact later other (by simp)
  · rintro rfl
    exact spelled_of_items kinds

theorem Item.Covers.kind_ne_text {offset : Nat} {text : List Char} {items : List Item}
    (covers : Item.Covers offset text items) {token : Token} (member : .tag token ∈ items) :
    token.kind ≠ .text := by
  induction covers with
  | nil => simp at member
  | char _ ih => exact ih (by simpa using member)
  | tag _ kind _ _ ih =>
      rcases List.mem_cons.1 member with same | later
      · rw [Item.tag.inj same]
        exact kind
      · exact ih later

theorem kept_of_tags (line : List Item) :
    (keptOf line).filterMap Item.tag? = line.filterMap Item.tag? := by
  rw [keptOf]
  split
  · rw [List.filterMap_filter]
    apply congrArg (line.filterMap ·)
    funext item
    cases item <;> rfl
  · rfl

/-- Lines give up text, never a tag. -/
theorem settle_lines_tags (items : List Item) :
    (settleLines {} items).filterMap Item.tag? = items.filterMap Item.tag? := by
  obtain ⟨lines, last, rfl, finished, unbroken⟩ := exists_lines items
  rw [settle_lines_eq_kept lines last finished unbroken]
  simp only [List.filterMap_append, List.filterMap_flatMap, List.filterMap_flatten, kept_of_tags]
  rfl

theorem settle_lines_kinds {offset : Nat} {text : List Char} {items : List Item}
    (covers : Item.Covers offset text items) (token : Token)
    (member : .tag token ∈ settleLines {} items) : token.kind ≠ .text := by
  have kept : token ∈ (settleLines {} items).filterMap Item.tag? :=
    List.mem_filterMap.2 ⟨_, member, rfl⟩
  rw [settle_lines_tags] at kept
  obtain ⟨item, among, same⟩ := List.mem_filterMap.1 kept
  cases item with
  | char offset c => contradiction
  | tag other =>
      obtain rfl : other = token := Option.some.inj same
      exact covers.kind_ne_text among

theorem Token.of_source_eq_ok_iff {delimiters : Delimiters} {source : String}
    {tokens : List Token} :
    Token.ofSource delimiters source = .ok tokens ↔
      Token.ofText delimiters source.toList = .ok tokens := by
  rw [Token.ofSource]
  cases Token.ofText delimiters source.toList <;> simp [Except.mapError]

/-- The tokens of a template are its items in order, each tag and each longest run of text, less
the text of the standalone lines. A buffer that drops blanks by their positions where a line ends,
and is squashed in the end, comes to the same. -/
theorem tokens_spell_kept_lines (delimiters : Delimiters) (source : String)
    (tokens : List Token) (made : Token.ofSource delimiters source = .ok tokens) :
    ∃ (items : List Item) (lines : List (List Item)) (last : List Item),
      Reading.ofText delimiters 0 source.toList = ⟨items, none⟩ ∧
        Item.Covers 0 source.toList items ∧
        items = lines.flatten ++ last ∧
        (∀ line ∈ lines, FinishedLine line) ∧
        (∀ item ∈ last, item.isLineFeed = false) ∧
        (∀ spelling, Spelled (lines.flatMap keptOf ++ last) spelling ↔ spelling = tokens) ∧
        Token.squash source.toList (items.foldl LineBuffer.push {}).tokens = .ok tokens := by
  obtain ⟨items, read, _, rfl⟩ := Token.of_text_eq_ok_iff.1 (Token.of_source_eq_ok_iff.1 made)
  have covers := Reading.of_text_covers delimiters 0 source.toList (by rw [read])
  rw [read] at covers
  obtain ⟨lines, last, rfl, finished, unbroken⟩ := exists_lines items
  refine ⟨_, lines, last, read, covers, rfl, finished, unbroken, ?_,
    Token.squash_of_buffer covers⟩
  intro spelling
  rw [← settle_lines_eq_kept lines last finished unbroken]
  exact spelled_iff (settle_lines_kinds covers)

theorem section_tags_give_up_their_lines :
    let source := "a\n \x7b\x7b#s\x7d\x7d \n\x7b\x7bx\x7d\x7d \n\x7b\x7b/s\x7d\x7d\n "
    let tokens : List Token :=
      [⟨.text, "a\n", ⟨0, 2⟩⟩, ⟨.opening, "s", ⟨3, 9⟩⟩, ⟨.escaped, "x", ⟨11, 16⟩⟩,
        ⟨.text, " \n", ⟨16, 18⟩⟩, ⟨.closing, "s", ⟨18, 24⟩⟩, ⟨.text, " ", ⟨25, 26⟩⟩]
    Token.ofSource .braces source = .ok tokens ∧
      ∃ (items : List Item) (lines : List (List Item)) (last : List Item),
        Reading.ofText .braces 0 source.toList = ⟨items, none⟩ ∧
          Item.Covers 0 source.toList items ∧
          items = lines.flatten ++ last ∧
          (∀ line ∈ lines, FinishedLine line) ∧
          (∀ item ∈ last, item.isLineFeed = false) ∧
          (∀ spelling, Spelled (lines.flatMap keptOf ++ last) spelling ↔ spelling = tokens) ∧
          Token.squash source.toList (items.foldl LineBuffer.push {}).tokens = .ok tokens := by
  intro source tokens
  have made : Token.ofSource .braces source = .ok tokens := by cbv
  exact ⟨made, tokens_spell_kept_lines .braces source tokens made⟩

end Mustache

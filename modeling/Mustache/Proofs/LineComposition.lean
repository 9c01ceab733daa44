import Mustache.Proofs.StandaloneLines

/-!
Templates put together line by line. When a first part of a template is a whole number of
lines and compiles, the template has the tokens of the first part and then those of the
second, moved behind the first and read under the delimiters the first part leaves in
force; only a text at the seam is one. A fault of the second part is the fault of the
template, at its moved place. Nothing the reader keeps while it goes along, neither the
line nor the open sections, reaches over the seam.
-/

namespace Mustache

namespace Text

theorem width_eq_utf8_size (text : String) : width text.toList = text.utf8ByteSize := by
  have sizes : ∀ chars : List Char, width chars = (String.ofList chars).utf8ByteSize := by
    intro chars
    induction chars with
    | nil => simp [width]
    | cons c rest ih => simp [width, ih]
  rw [sizes, String.ofList_toList]

theorem line_feeds_before_append (first second : List Char) (position : Nat) :
    lineFeedsBefore (width first + position) (first ++ second) =
      first.count '\n' + lineFeedsBefore position second := by
  induction first with
  | nil => simp [width]
  | cons c rest ih =>
      have positive := c.utf8Size_pos
      have behind : c.utf8Size + width rest + position - c.utf8Size = width rest + position := by
        omega
      rw [width, List.cons_append, lineFeedsBefore, if_neg (by omega), behind, ih,
        List.count_cons]
      simp only [beq_iff_eq]
      omega

end Text

/-! ### The seam -/

theorem Delimiter.not_ends_line (delimiter : Delimiter) (before : List Char) :
    ¬ Text.EndsLine (before ++ delimiter.chars) := by
  intro ends
  rcases List.eq_nil_or_concat delimiter.chars with empty | ⟨front, last, shape⟩
  · exact delimiter.nonempty empty
  · rw [shape, List.concat_eq_append, ← List.append_assoc] at ends
    have lineFeed : last = '\n' := Text.line_feed_of_ends_line ends
    exact delimiter.line_feed_not_mem (by simp [shape, lineFeed])

/-- The items of whole lines: none, or a line feed of the text stands last. -/
def EndsLineFeed (items : List Item) : Prop :=
  items = [] ∨ ∃ before offset, items = before ++ [.char offset '\n']

theorem EndsLineFeed.cons {items : List Item} (ends : EndsLineFeed items) (nonempty : items ≠ [])
    (item : Item) : EndsLineFeed (item :: items) := by
  rcases ends with empty | ⟨before, offset, rfl⟩
  · exact absurd empty nonempty
  · exact Or.inr ⟨item :: before, offset, rfl⟩

theorem Item.Covers.items_ne_nil {offset : Nat} {text : List Char} {items : List Item}
    (covers : Item.Covers offset text items) (nonempty : text ≠ []) : items ≠ [] := by
  cases covers with
  | nil => exact absurd rfl nonempty
  | char _ => exact List.cons_ne_nil _ _
  | tag _ _ _ _ => exact List.cons_ne_nil _ _

namespace Reading

theorem of_text_ends_line_feed (delimiters : Delimiters) (offset : Nat) (text : List Char)
    (ends : Text.EndsLine text) (whole : (ofText delimiters offset text).fault = none) :
    EndsLineFeed (ofText delimiters offset text).items := by
  fun_induction ofText delimiters offset text with
  | case1 => exact Or.inl rfl
  | case2 delimiters offset c rest apart ih =>
      by_cases last : rest = []
      · subst last
        have lineFeed : c = '\n' := Text.line_feed_of_ends_line (List.nil_append [c] ▸ ends)
        subst lineFeed
        exact Or.inr ⟨[], offset, by simp [ofText, cons]⟩
      · have later := ih (Text.ends_line_suffix (List.suffix_cons c rest) ends) whole
        exact later.cons ((of_text_covers delimiters _ rest whole).items_ne_nil last) _
  | case3 => simp [stoppedBy] at whole
  | case4 => simp [stoppedBy] at whole
  | case5 delimiters offset c rest behind opened tag made stop after fit ih =>
      obtain ⟨inner, same⟩ := Tag.body_between opened made
      have last : tag.rest ≠ [] := by
        intro last
        rw [same, last, List.append_nil] at ends
        exact delimiters.closer.not_ends_line _ ends
      have later := ih (Text.ends_line_suffix ⟨_, same.symm⟩ ends) whole
      exact later.cons ((of_text_covers after stop tag.rest whole).items_ne_nil last) _

end Reading

/-! ### Lines behind the seam -/

theorem settle_lines_feed (line : OpenLine) (items : List Item) (offset : Nat)
    (rest : List Item) :
    settleLines line (items ++ .char offset '\n' :: rest) =
      settleLines line (items ++ [.char offset '\n']) ++ settleLines {} rest := by
  induction items generalizing line with
  | nil => simp [settleLines, Item.isLineFeed]
  | cons item items ih =>
      simp only [List.cons_append, settleLines]
      split
      · rw [ih, List.append_assoc]
      · exact ih _

/-- No mark of a line is left behind whole lines. -/
theorem settle_lines_append {first : List Item} (ends : EndsLineFeed first)
    (second : List Item) :
    settleLines {} (first ++ second) = settleLines {} first ++ settleLines {} second := by
  rcases ends with rfl | ⟨before, offset, rfl⟩
  · rfl
  · rw [List.append_assoc]
    exact settle_lines_feed {} before offset second

section Shift

variable (distance : Nat)

@[simp] theorem Item.is_tag_shift (item : Item) : (item.shift distance).isTag = item.isTag := by
  cases item <;> rfl

@[simp] theorem Item.is_ink_shift (item : Item) : (item.shift distance).isInk = item.isInk := by
  cases item <;> rfl

@[simp] theorem Item.is_line_feed_shift (item : Item) :
    (item.shift distance).isLineFeed = item.isLineFeed := by
  cases item <;> rfl

def OpenLine.shift (line : OpenLine) : OpenLine :=
  { line with items := line.items.map (Item.shift distance) }

theorem OpenLine.add_shift (line : OpenLine) (item : Item) :
    (line.shift distance).add (item.shift distance) = (line.add item).shift distance := by
  simp [OpenLine.add, OpenLine.shift]

theorem OpenLine.finish_shift (line : OpenLine) :
    (line.shift distance).finish = line.finish.map (Item.shift distance) := by
  obtain ⟨items, tagged, inked⟩ := line
  cases tagged <;> cases inked <;>
    simp [OpenLine.finish, OpenLine.shift, List.filter_map, Function.comp_def]

theorem settle_lines_shift (line : OpenLine) (items : List Item) :
    settleLines (line.shift distance) (items.map (Item.shift distance)) =
      (settleLines line items).map (Item.shift distance) := by
  induction items generalizing line with
  | nil => simp [settleLines, OpenLine.shift]
  | cons item rest ih =>
      simp only [List.map_cons, settleLines, Item.is_line_feed_shift, OpenLine.add_shift]
      split
      · have later := ih {}
        rw [OpenLine.finish_shift, List.map_append, ← later]
        rfl
      · exact ih _

theorem Token.cons_char_shift (offset : Nat) (c : Char) (tokens : List Token) :
    Token.consChar (offset + distance) c (tokens.map (Token.shift distance)) =
      (Token.consChar offset c tokens).map (Token.shift distance) := by
  cases tokens with
  | nil => simp [Token.consChar, Token.shift, Span.shift, Nat.add_right_comm]
  | cons token rest =>
      obtain ⟨kind, value, span⟩ := token
      cases kind <;>
        simp [Token.consChar, Token.shift, Span.shift, Nat.add_right_comm]

theorem Token.of_items_shift (items : List Item) :
    Token.ofItems (items.map (Item.shift distance)) =
      (Token.ofItems items).map (Token.shift distance) := by
  induction items with
  | nil => rfl
  | cons item rest ih =>
      cases item with
      | tag token => simp only [List.map_cons, Item.shift, Token.ofItems, ih]
      | char offset c =>
          simp only [List.map_cons, Item.shift, Token.ofItems, ih, Token.cons_char_shift]

end Shift

/-! ### Sections behind the seam -/

section Balance

variable (distance : Nat)

def OpenSection.shift (opened : OpenSection) : OpenSection :=
  { opened with offset := opened.offset + distance }

theorem sections_behind_append (opened : List OpenSection) (first second : List Item) :
    sectionsBehind opened (first ++ second) =
      (sectionsBehind opened first).bind fun left => sectionsBehind left second := by
  induction first generalizing opened with
  | nil => rfl
  | cons item rest ih =>
      cases item with
      | char offset c => exact ih opened
      | tag token =>
          simp only [List.cons_append, sectionsBehind]
          split
          · exact ih _
          · rfl

theorem Token.shift_sections_shift (opened : List OpenSection) (token : Token) :
    (token.shift distance).shiftSections (opened.map (OpenSection.shift distance)) =
      ((token.shiftSections opened).map (List.map (OpenSection.shift distance))).mapError
        (Located.shift distance) := by
  obtain ⟨kind, value, span⟩ := token
  cases kind with
  | opening | inverted =>
      simp only [Token.shift, Token.shiftSections, List.length_map]
      split <;> rfl
  | closing =>
      cases opened with
      | nil => rfl
      | cons innermost outer =>
          by_cases same : innermost.name = value <;>
            simp [Token.shift, Token.shiftSections, OpenSection.shift, Span.shift,
              Located.shift, Except.map, Except.mapError, same]
  | text | escaped | unescaped | inclusion | comment | delimiters => rfl

theorem sections_behind_shift (opened : List OpenSection) (items : List Item) :
    sectionsBehind (opened.map (OpenSection.shift distance)) (items.map (Item.shift distance)) =
      ((sectionsBehind opened items).map (List.map (OpenSection.shift distance))).mapError
        (Located.shift distance) := by
  induction items generalizing opened with
  | nil => rfl
  | cons item rest ih =>
      cases item with
      | char offset c => exact ih opened
      | tag token =>
          simp only [List.map_cons, Item.shift, sectionsBehind, Token.shift_sections_shift]
          cases token.shiftSections opened with
          | error located => rfl
          | ok left => exact ih left

theorem Reading.balanced_shift (reading : Reading) :
    (reading.shift distance).balanced =
      (reading.balanced.map (List.map (Item.shift distance))).mapError
        (Located.shift distance) := by
  obtain ⟨items, fault⟩ := reading
  have sections := sections_behind_shift distance [] items
  rw [List.map_nil] at sections
  simp only [Reading.balanced, Reading.shift, sections]
  cases sectionsBehind [] items with
  | error located => rfl
  | ok left =>
      cases fault with
      | some located => rfl
      | none => cases left <;> rfl

/-- Items in front that leave no section open change nothing but what is kept. -/
theorem Reading.balanced_behind {first : List Item} (closed : sectionsBehind [] first = .ok [])
    (reading : Reading) :
    (reading.behind first).balanced = reading.balanced.map (first ++ ·) := by
  obtain ⟨items, fault⟩ := reading
  simp only [Reading.balanced, Reading.behind, sections_behind_append, closed, Except.bind]
  cases sectionsBehind [] items with
  | error located => rfl
  | ok left =>
      cases fault with
      | some located => rfl
      | none => cases left <;> rfl

end Balance

/-! ### Delimiters at the seam -/

theorem Delimiters.behind_cons_char (delimiters : Delimiters) (offset : Nat) (c : Char)
    (tokens : List Token) :
    delimiters.behind (Token.consChar offset c tokens) = delimiters.behind tokens := by
  cases tokens with
  | nil => rfl
  | cons token rest =>
      obtain ⟨kind, value, span⟩ := token
      cases kind <;> rfl

theorem Delimiters.behind_of_items (delimiters : Delimiters) (items : List Item) :
    delimiters.behind (Token.ofItems items) = delimiters.behind (items.filterMap Item.tag?) := by
  induction items generalizing delimiters with
  | nil => rfl
  | cons item rest ih =>
      cases item with
      | tag token => exact ih (token.delimitersAfter delimiters)
      | char offset c => exact (delimiters.behind_cons_char offset c _).trans (ih delimiters)

/-! ### Text at the seam -/

/-- A token in front of others; two texts become one. -/
def Token.join (token : Token) : List Token → List Token
  | [] => [token]
  | next :: rest =>
      if token.kind = .text ∧ next.kind = .text then
        ⟨.text, token.value ++ next.value, ⟨token.span.first, next.span.stop⟩⟩ :: rest
      else token :: next :: rest

/-- Tokens in front of others; a text last among them and a text next to it become one. -/
def Token.joinAll : List Token → List Token → List Token
  | [], rest => rest
  | [token], rest => token.join rest
  | token :: next :: tokens, rest => token :: joinAll (next :: tokens) rest

theorem Token.cons_char_join_all (offset : Nat) (c : Char) (first second : List Token) :
    Token.consChar offset c (Token.joinAll first second) =
      Token.joinAll (Token.consChar offset c first) second := by
  cases first with
  | nil =>
      cases second with
      | nil => rfl
      | cons next rest =>
          obtain ⟨kind, value, span⟩ := next
          cases kind <;> rfl
  | cons token tokens =>
      obtain ⟨kind, value, span⟩ := token
      cases tokens with
      | nil =>
          cases second with
          | nil => cases kind <;> rfl
          | cons next rest =>
              obtain ⟨nextKind, nextValue, nextSpan⟩ := next
              cases kind <;> cases nextKind <;>
                simp [Token.joinAll, Token.join, Token.consChar, String.append_assoc]
      | cons next tokens => cases kind <;> rfl

theorem Token.of_items_append {first : List Item}
    (kinds : ∀ token, .tag token ∈ first → token.kind ≠ .text) (second : List Item) :
    Token.ofItems (first ++ second) =
      Token.joinAll (Token.ofItems first) (Token.ofItems second) := by
  induction first with
  | nil => rfl
  | cons item rest ih =>
      have later := ih fun token member => kinds token (List.mem_cons_of_mem item member)
      cases item with
      | char offset c =>
          rw [List.cons_append, Token.ofItems, later, Token.cons_char_join_all]
          rfl
      | tag token =>
          have tagged := kinds token (by simp)
          rw [List.cons_append, Token.ofItems, later, Token.ofItems]
          cases Token.ofItems rest with
          | nil => cases Token.ofItems second <;> simp [Token.joinAll, Token.join, tagged]
          | cons next tokens => rfl

/-! ### Whole lines in front -/

theorem Token.of_text_append {initial : Delimiters} {first : List Char} {tokens : List Token}
    (ends : Text.EndsLine first) (made : Token.ofText initial first = .ok tokens)
    (second : List Char) :
    Token.ofText initial (first ++ second) =
      ((Token.ofText (initial.behind tokens) second).map fun more =>
        Token.joinAll tokens (more.map (Token.shift (Text.width first)))).mapError
        (Located.shift (Text.width first)) := by
  obtain ⟨items, read, closed, rfl⟩ := Token.of_text_eq_ok_iff.1 made
  have covers := Reading.of_text_covers initial 0 first (by rw [read])
  have seam := Reading.of_text_ends_line_feed initial 0 first ends (by rw [read])
  have goesOn := Reading.of_text_append initial 0 first second ends (by rw [read])
  rw [read] at covers seam goesOn
  have force : initial.behind (Token.ofItems (settleLines {} items)) =
      initial.behind (items.filterMap Item.tag?) := by
    rw [Delimiters.behind_of_items, settle_lines_tags]
  rw [Token.ofText, goesOn, Reading.of_text_shift, Reading.balanced_behind closed,
    Reading.balanced_shift, force, Token.ofText]
  cases (Reading.ofText (initial.behind (items.filterMap Item.tag?)) 0 second).balanced with
  | error located => rfl
  | ok more =>
      have shifted := settle_lines_shift (Text.width first) {} more
      simp only [Except.map, Except.mapError, Except.ok.injEq]
      rw [settle_lines_append seam, Token.of_items_append (settle_lines_kinds covers),
        ← Token.of_items_shift, ← shifted]
      rfl

/-- A template whose first part is whole lines that compile: its tokens are those of the first
part and, moved behind it, those of the second under the delimiters then in force; and it has
the second part's fault at its moved place. -/
theorem tokens_of_lines_append (initial : Delimiters) (first second : String)
    (tokens : List Token) (ends : Text.EndsLine first.toList)
    (made : Token.ofSource initial first = .ok tokens) :
    match Token.ofSource (initial.behind tokens) second with
    | .ok more =>
        Token.ofSource initial (first ++ second) =
          .ok (Token.joinAll tokens (more.map (Token.shift first.utf8ByteSize)))
    | .error error =>
        ∃ location moved, error.location = some location ∧
          Token.ofSource initial (first ++ second) = .error moved ∧
          moved.kind = error.kind ∧ moved.detail = error.detail ∧
          moved.location = some ⟨location.offset + first.utf8ByteSize,
            location.line + first.toList.count '\n'⟩ := by
  have whole := Token.of_text_append ends (Token.of_source_eq_ok_iff.1 made) second.toList
  rw [Text.width_eq_utf8_size] at whole
  simp only [Token.ofSource, String.toList_append, whole]
  cases Token.ofText (initial.behind tokens) second.toList with
  | ok more => rfl
  | error located =>
      refine ⟨_, _, rfl, rfl, rfl, rfl, ?_⟩
      have line := Text.line_feeds_before_append first.toList second.toList located.offset
      simp only [Located.toError, Error.located, Located.shift, Location.ofOffset, Text.lineAt,
        Option.some.injEq, Location.mk.injEq, true_and]
      rw [Nat.add_comm located.offset, ← Text.width_eq_utf8_size, line]
      omega

/-- A first part that changes the delimiters, and text on both sides of the seam. -/
theorem changed_delimiters_reach_the_next_lines :
    let first := "\x7b\x7b=| |=\x7d\x7d\na\n"
    let second := "b|x|"
    let tokens : List Token := [⟨.delimiters, "| |", ⟨0, 9⟩⟩, ⟨.text, "a\n", ⟨10, 12⟩⟩]
    let more : List Token := [⟨.text, "b", ⟨0, 1⟩⟩, ⟨.escaped, "x", ⟨1, 4⟩⟩]
    Text.EndsLine first.toList ∧ Token.ofSource .braces first = .ok tokens ∧
      Token.ofSource (Delimiters.braces.behind tokens) second = .ok more ∧
      Token.ofSource .braces (first ++ second) =
        .ok (Token.joinAll tokens (more.map (Token.shift first.utf8ByteSize))) := by
  intro first second tokens more
  have ends : Text.EndsLine first.toList :=
    Or.inr ⟨"\x7b\x7b=| |=\x7d\x7d\na".toList, by decide⟩
  have made : Token.ofSource .braces first = .ok tokens := by cbv
  have madeSecond : Token.ofSource (Delimiters.braces.behind tokens) second = .ok more := by cbv
  have whole := tokens_of_lines_append .braces first second tokens ends made
  rw [madeSecond] at whole
  exact ⟨ends, made, madeSecond, whole⟩

end Mustache

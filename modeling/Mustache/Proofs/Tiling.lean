import Mustache.Proofs.StandaloneLines

/-!
How the tokens of a template stand on it. A tag stands on the delimiters in force around it
and on all between them, a text on just the characters it carries, and what stands under no
token is blank. A standalone line gives up its blanks up to a tag or from a tag on, so
between two characters that a text keeps no blank is missing.
-/

namespace Mustache

namespace Text

/-- No blank stands at either end of the text. -/
def Trimmed (text : List Char) : Prop :=
  (∀ c ∈ text.head?, isBlank c = false) ∧ ∀ c ∈ text.getLast?, isBlank c = false

theorem trim_end_cons (c : Char) (rest : List Char) :
    trimEnd (c :: rest) = [] ∧ trimEnd rest = [] ∧ isBlank c = true ∨
      trimEnd (c :: rest) = c :: trimEnd rest ∧ (trimEnd rest = [] → isBlank c = false) := by
  simp only [trimEnd]
  cases trimEnd rest with
  | nil => cases blank : isBlank c <;> simp
  | cons kept more => simp

theorem trim_end_begins (text : List Char) : trimEnd text <+: text := by
  induction text with
  | nil => exact List.prefix_rfl
  | cons c rest ih =>
      rcases trim_end_cons c rest with ⟨empty, _, _⟩ | ⟨kept, _⟩
      · rw [empty]
        exact List.nil_prefix
      · rw [kept]
        exact (List.prefix_cons_inj c).2 ih

theorem trim_end_last_solid (text : List Char) :
    ∀ c ∈ (trimEnd text).getLast?, isBlank c = false := by
  induction text with
  | nil => simp [trimEnd]
  | cons c rest ih =>
      rcases trim_end_cons c rest with ⟨empty, _, _⟩ | ⟨kept, solid⟩
      · simp [empty]
      · rw [kept]
        cases trimmed : trimEnd rest with
        | nil => simpa using solid trimmed
        | cons last more =>
            rw [trimmed] at ih
            simpa using ih

theorem drop_blank_head_solid (text : List Char) :
    ∀ c ∈ (dropBlank text).head?, isBlank c = false := by
  intro c head
  have stops := List.head?_dropWhile_not isBlank text
  rw [dropBlank, Option.mem_def] at head
  simpa [head] using stops

theorem head_of_begins {text whole : List Char} (begins : text <+: whole) :
    ∀ c ∈ text.head?, c ∈ whole.head? := by
  intro c head
  obtain ⟨rest, rfl⟩ := begins
  cases text with
  | nil => simp at head
  | cons first more => simpa using head

/-- What is cut off behind leading blanks and trimmed at its end has no blank at either end. -/
theorem trim_end_trimmed {text before : List Char} (begins : before <+: dropBlank text) :
    Trimmed (trimEnd before) := by
  refine ⟨?_, trim_end_last_solid before⟩
  intro c head
  exact drop_blank_head_solid text c
    (head_of_begins ((trim_end_begins before).trans begins) c head)

theorem width_pos {text : List Char} (nonempty : text ≠ []) : 0 < width text := by
  cases text with
  | nil => exact absurd rfl nonempty
  | cons c rest =>
      have wide := c.utf8Size_pos
      simp only [width]
      omega

/-- A character of a text put together from two stands in the first or behind it. -/
theorem split_append {body rest before after : List Char} {c : Char}
    (same : body ++ rest = before ++ c :: after) :
    (∃ more, body = before ++ c :: more) ∨
      ∃ more, before = body ++ more ∧ rest = more ++ c :: after := by
  rcases List.append_eq_append_iff.1 same with ⟨more, behind, inside⟩ | ⟨more, inside, behind⟩
  · exact Or.inr ⟨more, behind, inside⟩
  · cases more with
    | nil => exact Or.inr ⟨[], by simp [inside], by simpa using behind.symm⟩
    | cons first more =>
        obtain ⟨rfl, _⟩ := List.cons.inj behind
        exact Or.inl ⟨more, inside⟩

end Text

/-! ### Tags between their delimiters -/

namespace Tag

/-- Up to the closer behind it, the tag's value stands in the text without blanks around it. -/
def Encloses (closer text : List Char) (tag : Tag) : Prop :=
  ∃ inner, text = inner ++ closer ++ tag.rest ∧ tag.value <:+: inner ∧ Text.Trimmed tag.value

theorem Encloses.of_suffix {closer body text : List Char} {tag : Tag}
    (encloses : Encloses closer body tag) (suffix : body <:+ text) : Encloses closer text tag := by
  obtain ⟨inner, rfl, among, trimmed⟩ := encloses
  obtain ⟨passed, rfl⟩ := suffix
  refine ⟨passed ++ inner, by simp only [List.append_assoc], ?_, trimmed⟩
  exact among.trans (List.suffix_append passed inner).isInfix

theorem ending_in_encloses {kind : TokenKind} {closing body : List Char} {tag : Tag}
    (made : endingIn kind closing body = some tag) : Encloses closing body tag := by
  simp only [endingIn, Option.map_eq_some_iff] at made
  obtain ⟨⟨before, rest⟩, found, rfl⟩ := made
  have whole := Text.cut_append found
  have dropped : Text.dropBlank body <:+ body := List.dropWhile_suffix Text.isBlank
  have encloses : Encloses closing (Text.dropBlank body)
      ⟨kind, Text.trimEnd before, rest⟩ := by
    refine ⟨before, by rw [whole, List.append_assoc], ?_, ?_⟩
    · exact (Text.trim_end_begins before).isInfix
    · exact Text.trim_end_trimmed ⟨_, whole.symm⟩
  exact encloses.of_suffix dropped

theorem delimiter_change_encloses {closer body : List Char} {tag : Tag}
    (made : delimiterChange closer body = some tag) : Encloses closer body tag := by
  simp only [delimiterChange] at made
  split at made
  · contradiction
  next value afterMark marked =>
    split at made
    · contradiction
    next before rest closed =>
      cases made
      have whole := Text.cut_append marked
      have dropped : Text.dropBlank body <:+ body := List.dropWhile_suffix Text.isBlank
      have encloses : Encloses closer (Text.dropBlank body)
          ⟨.delimiters, Text.trimEnd value, rest⟩ := by
        refine ⟨value ++ ['='] ++ before, ?_, ?_, ?_⟩
        · rw [whole, Text.cut_append closed]
          simp only [List.append_assoc]
        · have kept := (Text.trim_end_begins value).isInfix
          rw [List.append_assoc]
          exact kept.trans (List.prefix_append value _).isInfix
        · exact Text.trim_end_trimmed ⟨_, whole.symm⟩
      exact encloses.of_suffix dropped

/-- The spec of reading a tag: the closer ends it, and its value is what stands in front of the
closer or of a closing mark of its own, trimmed. -/
theorem read_encloses {closer text : List Char} {tag : Tag} (made : read closer text = some tag) :
    Encloses closer text tag := by
  have dropped : Text.dropBlank text <:+ text := List.dropWhile_suffix Text.isBlank
  simp only [read] at made
  split at made
  · contradiction
  next c body shape =>
    rw [shape] at dropped
    have behindSigil := (List.suffix_cons c body).trans dropped
    split at made
    · exact (delimiter_change_encloses made).of_suffix behindSigil
    · split at made
      · obtain ⟨inner, same, among, trimmed⟩ := ending_in_encloses made
        have encloses : Encloses closer body tag := by
          refine ⟨inner ++ ['\x7d'], by simpa using same, ?_, trimmed⟩
          exact among.trans (List.prefix_append inner _).isInfix
        exact encloses.of_suffix behindSigil
      · split at made
        · exact (ending_in_encloses made).of_suffix behindSigil
        · exact (ending_in_encloses made).of_suffix dropped

end Tag

/-- The characters are an opener, a closer and the token's value somewhere between them. -/
def Token.Framed (delimiters : Delimiters) (body : List Char) (token : Token) : Prop :=
  ∃ inner, body = delimiters.opener.chars ++ inner ++ delimiters.closer.chars ∧
    token.value.toList <:+: inner ∧ Text.Trimmed token.value.toList

/-! ### Items with blanks left out -/

namespace Item

/-- Of two characters one behind the other the second begins where the first ends. -/
def Touches : Item → Item → Prop
  | .char offset c, .char next _ => next = offset + c.utf8Size
  | _, _ => True

/-- The items stand on the text under the delimiters in force. What they leave out of it is blank
and does not stand between two characters. -/
inductive Tiles : Delimiters → Nat → List Char → List Item → Prop
  | nil {delimiters : Delimiters} {offset : Nat} : Tiles delimiters offset [] []
  | gap {delimiters : Delimiters} {offset : Nat} {c : Char} {rest : List Char}
      {items : List Item} (blank : Text.isBlank c = true)
      (behind : Tiles delimiters (offset + c.utf8Size) rest items) :
      Tiles delimiters offset (c :: rest) items
  | char {delimiters : Delimiters} {offset : Nat} {c : Char} {rest : List Char}
      {items : List Item} (next : ∀ item ∈ items.head?, Touches (.char offset c) item)
      (behind : Tiles delimiters (offset + c.utf8Size) rest items) :
      Tiles delimiters offset (c :: rest) (.char offset c :: items)
  | tag {delimiters : Delimiters} {offset : Nat} {body rest : List Char} {token : Token}
      {items : List Item} (kind : token.kind ≠ .text) (framed : token.Framed delimiters body)
      (span : token.span = ⟨offset, offset + Text.width body⟩)
      (behind : Tiles (token.delimitersAfter delimiters) (offset + Text.width body) rest items) :
      Tiles delimiters offset (body ++ rest) (.tag token :: items)

theorem Covers.touches {offset : Nat} {c : Char} {rest : List Char} {items : List Item}
    (covers : Covers (offset + c.utf8Size) rest items) :
    ∀ item ∈ items.head?, Touches (.char offset c) item := by
  intro item head
  cases covers with
  | nil => simp at head
  | char _ =>
      cases Option.some.inj head
      rfl
  | tag _ _ _ _ =>
      cases Option.some.inj head
      trivial

end Item

theorem Reading.of_text_tiles (delimiters : Delimiters) (offset : Nat) (text : List Char)
    (whole : (ofText delimiters offset text).fault = none) :
    Item.Tiles delimiters offset text (ofText delimiters offset text).items := by
  fun_induction ofText delimiters offset text with
  | case1 => exact .nil
  | case2 delimiters offset c rest apart ih =>
      exact .char (of_text_covers delimiters _ rest whole).touches (ih whole)
  | case3 => simp [stoppedBy] at whole
  | case4 => simp [stoppedBy] at whole
  | case5 delimiters offset c rest behind opened tag made stop after fit ih =>
      obtain ⟨inner, closed, among, trimmed⟩ := Tag.read_encloses made
      have same : c :: rest =
          (delimiters.opener.chars ++ inner ++ delimiters.closer.chars) ++ tag.rest := by
        rw [Text.after_eq_some_iff.1 opened, closed]
        simp only [List.append_assoc]
      generalize bounds : delimiters.opener.chars ++ inner ++ delimiters.closer.chars = body at same
      have stops : stop = offset + Text.width body := by
        simp only [stop, same, Text.width_append]
        omega
      have force := Tag.delimiters_after_token fit ⟨offset, stop⟩
      have tiles := ih whole
      rw [same, stops] at *
      refine .tag (Tag.read_kind_ne_text made) ⟨inner, bounds.symm, ?_, ?_⟩ rfl ?_
      · simpa using among
      · simpa using trimmed
      · rw [force]
        exact tiles

/-- The first item kept is the first item, or a tag. -/
def KeepsHead (items kept : List Item) : Prop :=
  ∀ placed : PlacedChar, kept.head? = some placed.toItem → items.head? = some placed.toItem

/-- Blank characters are left out of the items, but none between two that are kept. -/
inductive Thinned : List Item → List Item → Prop
  | nil : Thinned [] []
  | dropped {offset : Nat} {c : Char} {items kept : List Item} (blank : Text.isBlank c = true)
      (behind : Thinned items kept) : Thinned (.char offset c :: items) kept
  | char {offset : Nat} {c : Char} {items kept : List Item} (joined : KeepsHead items kept)
      (behind : Thinned items kept) : Thinned (.char offset c :: items) (.char offset c :: kept)
  | tag {token : Token} {items kept : List Item} (behind : Thinned items kept) :
      Thinned (.tag token :: items) (.tag token :: kept)

theorem KeepsHead.append {items kept : List Item} (joined : KeepsHead items kept)
    (line : List Item) : KeepsHead (line ++ items) (line ++ kept) := by
  intro placed head
  cases line with
  | nil => exact joined placed head
  | cons item rest => exact head

namespace Thinned

theorem append {items kept : List Item} (thinned : Thinned items kept)
    (joined : KeepsHead items kept) (line : List Item) :
    Thinned (line ++ items) (line ++ kept) := by
  induction line with
  | nil => exact thinned
  | cons item rest ih =>
      cases item with
      | char offset c => exact .char (joined.append rest) ih
      | tag token => exact .tag ih

theorem tags_only {items kept : List Item} (thinned : Thinned items kept) {line : List Item}
    (blank : ∀ offset c, .char offset c ∈ line → Text.isBlank c = true) :
    Thinned (line ++ items) (line.filter Item.isTag ++ kept) := by
  induction line with
  | nil => exact thinned
  | cons item rest ih =>
      have later := ih fun offset c member => blank offset c (List.mem_cons_of_mem item member)
      cases item with
      | char offset c => exact .dropped (blank offset c List.mem_cons_self) later
      | tag token => exact .tag later

/-- A line in front is kept whole, or begins with a tag and so keeps what follows apart. -/
theorem line {items kept : List Item} (thinned : Thinned items kept)
    (joined : KeepsHead items kept) (line : List Item) :
    Thinned (line ++ items) (keptOf line ++ kept) ∧
      KeepsHead (line ++ items) (keptOf line ++ kept) := by
  by_cases standalone : Standalone line
  · rw [keptOf, if_pos standalone]
    refine ⟨thinned.tags_only standalone.blank, ?_⟩
    intro placed head
    obtain ⟨token, member⟩ := standalone.tagged
    have tagged : .tag token ∈ line.filter Item.isTag := by simp [member, Item.isTag]
    cases tags : line.filter Item.isTag with
    | nil => simp [tags] at tagged
    | cons first rest =>
        rw [tags] at head
        obtain rfl : first = placed.toItem := Option.some.inj head
        have isTag : placed.toItem.isTag = true :=
          (List.mem_filter.1 (tags ▸ List.mem_cons_self)).2
        simp [PlacedChar.toItem, Item.isTag] at isTag
  · rw [keptOf, if_neg standalone]
    exact ⟨thinned.append joined line, joined.append line⟩

theorem refl (items : List Item) : Thinned items items := by
  have whole := Thinned.nil.append (fun _ head => head) items
  simpa using whole

theorem settle_lines (items : List Item) : Thinned items (settleLines {} items) := by
  obtain ⟨lines, last, rfl, finished, unbroken⟩ := exists_lines items
  rw [settle_lines_eq_kept lines last finished unbroken]
  -- from the last line backwards: what a line needs to know is what is kept behind it
  have whole : Thinned (lines.flatten ++ last) (lines.flatMap keptOf ++ last) ∧
      KeepsHead (lines.flatten ++ last) (lines.flatMap keptOf ++ last) := by
    clear finished unbroken
    induction lines with
    | nil => exact ⟨refl last, fun _ head => head⟩
    | cons line lines ih =>
        simp only [List.flatten_cons, List.flatMap_cons, List.append_assoc]
        exact ih.1.line ih.2 line
  exact whole.1

end Thinned

namespace Item

theorem Tiles.thin {delimiters : Delimiters} {offset : Nat} {text : List Char}
    {items kept : List Item} (tiles : Tiles delimiters offset text items)
    (thinned : Thinned items kept) : Tiles delimiters offset text kept := by
  induction tiles generalizing kept with
  | nil =>
      cases thinned
      exact .nil
  | gap blank _ ih => exact .gap blank (ih thinned)
  | char next _ ih =>
      cases thinned with
      | dropped blank behind => exact .gap blank (ih behind)
      | char joined behind =>
          refine .char ?_ (ih behind)
          intro item head
          cases item with
          | tag token => trivial
          | char offset c => exact next _ (joined (offset, c) head)
  | tag kind framed span _ ih =>
      cases thinned with
      | tag behind => exact .tag kind framed span (ih behind)

theorem Tiles.kind_ne_text {delimiters : Delimiters} {offset : Nat} {text : List Char}
    {items : List Item} (tiles : Tiles delimiters offset text items) {token : Token}
    (member : .tag token ∈ items) : token.kind ≠ .text := by
  induction tiles with
  | nil => simp at member
  | gap _ _ ih => exact ih member
  | char _ _ ih => exact ih (by simpa using member)
  | tag kind _ _ _ ih =>
      rcases List.mem_cons.1 member with same | later
      · rw [Item.tag.inj same]
        exact kind
      · exact ih later

theorem Tiles.touching {delimiters : Delimiters} {offset : Nat} {text : List Char}
    {items : List Item} (tiles : Tiles delimiters offset text items) :
    items.IsChain Touches := by
  induction tiles with
  | nil => exact .nil
  | gap _ _ ih => exact ih
  | char next _ ih => exact List.isChain_cons.2 ⟨next, ih⟩
  | tag _ _ _ _ ih => exact List.isChain_cons.2 ⟨fun _ _ => trivial, ih⟩

end Item

/-! ### Tokens -/

namespace Token

/-- The tokens stand on the text under the delimiters in force, a text on the characters it carries,
and what stands between them is blank. -/
inductive Tiles : Delimiters → Nat → List Char → List Token → Prop
  | nil {delimiters : Delimiters} {offset : Nat} : Tiles delimiters offset [] []
  | gap {delimiters : Delimiters} {offset : Nat} {c : Char} {rest : List Char}
      {tokens : List Token} (blank : Text.isBlank c = true)
      (behind : Tiles delimiters (offset + c.utf8Size) rest tokens) :
      Tiles delimiters offset (c :: rest) tokens
  | text {delimiters : Delimiters} {offset : Nat} {body rest : List Char} {value : String}
      {tokens : List Token} (nonempty : body ≠ []) (holds : value.toList = body)
      (next : ∀ token ∈ tokens.head?, token.kind ≠ .text)
      (behind : Tiles delimiters (offset + Text.width body) rest tokens) :
      Tiles delimiters offset (body ++ rest)
        (⟨.text, value, ⟨offset, offset + Text.width body⟩⟩ :: tokens)
  | tag {delimiters : Delimiters} {offset : Nat} {body rest : List Char} {token : Token}
      {tokens : List Token} (kind : token.kind ≠ .text) (framed : token.Framed delimiters body)
      (span : token.span = ⟨offset, offset + Text.width body⟩)
      (behind : Tiles (token.delimitersAfter delimiters) (offset + Text.width body) rest tokens) :
      Tiles delimiters offset (body ++ rest) (token :: tokens)

theorem Tiles.first_behind {delimiters : Delimiters} {offset : Nat} {text : List Char}
    {tokens : List Token} (tiles : Tiles delimiters offset text tokens) :
    ∀ token ∈ tokens, offset ≤ token.span.first := by
  induction tiles with
  | nil => simp
  | gap _ _ ih =>
      intro token member
      have behind := ih token member
      omega
  | text _ _ _ _ ih =>
      refine List.forall_mem_cons.2 ⟨Nat.le_refl _, ?_⟩
      intro token member
      have behind := ih token member
      omega
  | tag _ _ span _ ih =>
      refine List.forall_mem_cons.2 ⟨by rw [span], ?_⟩
      intro token member
      have behind := ih token member
      omega

/-- A character in front begins a text of its own, or joins one that begins right behind it. -/
theorem Tiles.cons_char {delimiters : Delimiters} {offset : Nat} {c : Char} {rest : List Char}
    {tokens : List Token} (tiles : Tiles delimiters (offset + c.utf8Size) rest tokens)
    (joined : ∀ token ∈ tokens.head?, token.kind = .text →
      token.span.first = offset + c.utf8Size) :
    Tiles delimiters offset (c :: rest) (consChar offset c tokens) := by
  by_cases apart : ∀ token, tokens.head? = some token → token.kind ≠ .text
  · have alone : Tiles delimiters offset ([c] ++ rest) (ofRun (offset, c) [] :: tokens) :=
      .text (List.cons_ne_nil c []) (by simp) apart tiles
    rwa [Token.cons_char_apart offset c apart]
  · simp only [not_forall, not_not] at apart
    obtain ⟨token, head, kind⟩ := apart
    have first := joined token head kind
    cases tiles with
    | nil => simp at head
    | @gap _ _ next _ _ _ behind =>
        have later := behind.first_behind token (List.mem_of_head? head)
        have wide := next.utf8Size_pos
        omega
    | @text _ _ body rest value tokens nonempty holds next behind =>
        have width : offset + c.utf8Size + Text.width body = offset + Text.width (c :: body) := by
          simp only [Text.width]
          omega
        rw [width] at behind
        have joint : Tiles delimiters offset ((c :: body) ++ rest)
            (⟨.text, String.singleton c ++ value, ⟨offset, offset + Text.width (c :: body)⟩⟩ ::
              tokens) :=
          .text (List.cons_ne_nil c body) (by simp [holds]) next behind
        rwa [consChar, width]
    | tag tagged _ _ _ =>
        rw [← Option.some.inj head] at kind
        contradiction

theorem cons_char_head (offset : Nat) (c : Char) (tokens : List Token) :
    ∃ value stop, (consChar offset c tokens).head? = some ⟨.text, value, ⟨offset, stop⟩⟩ := by
  cases tokens with
  | nil => exact ⟨_, _, rfl⟩
  | cons token rest =>
      obtain ⟨kind, value, span⟩ := token
      cases kind <;> exact ⟨_, _, rfl⟩

theorem tiles_of_items {delimiters : Delimiters} {offset : Nat} {text : List Char}
    {items : List Item} (tiles : Item.Tiles delimiters offset text items) :
    Tiles delimiters offset text (ofItems items) := by
  induction tiles with
  | nil => exact .nil
  | gap blank _ ih => exact .gap blank ih
  | @char _ offset c rest items next behind ih =>
      refine ih.cons_char ?_
      intro token head kind
      cases items with
      | nil => simp [ofItems] at head
      | cons item items =>
          cases item with
          | char other found =>
              obtain ⟨value, stop, shape⟩ := cons_char_head other found (ofItems items)
              obtain rfl : ⟨.text, value, ⟨other, stop⟩⟩ = token :=
                Option.some.inj (shape.symm.trans head)
              exact next _ rfl
          | tag other =>
              obtain rfl : other = token := by simpa [ofItems] using head
              exact absurd kind (behind.kind_ne_text List.mem_cons_self)
  | tag kind framed span _ ih => exact .tag kind framed span ih

end Token

/-! ### The tiling of a template -/

/-- The span is just where these characters stand in the text. -/
def Span.Holds (span : Span) (text body : List Char) : Prop :=
  ∃ before after, text = before ++ body ++ after ∧
    span = ⟨Text.width before, Text.width before + Text.width body⟩

namespace Token

/-- Tokens on a text, one behind the other: a text token on the characters it carries, a tag on the
delimiters in force and what is between them, and nothing but blanks on no token. -/
structure Tiling (delimiters : Delimiters) (text : List Char) (tokens : List Token) : Prop where
  filled : ∀ token ∈ tokens, token.span.first < token.span.stop
  ascending : tokens.Pairwise fun earlier later => earlier.span.stop ≤ later.span.first
  texts_apart : tokens.IsChain fun token next => token.kind = .text → next.kind ≠ .text
  held : ∀ before token after, tokens = before ++ token :: after →
    ∃ body, token.span.Holds text body ∧
      (token.kind = .text → token.value.toList = body) ∧
      (token.kind ≠ .text → token.Framed (delimiters.behind before) body)
  gaps_blank : ∀ before c after, text = before ++ c :: after → ∀ position,
    Text.width before ≤ position → position < Text.width before + c.utf8Size →
    (∀ token ∈ tokens, ¬ (token.span.first ≤ position ∧ position < token.span.stop)) →
    Text.isBlank c = true

theorem Framed.ne_nil {delimiters : Delimiters} {body : List Char} {token : Token}
    (framed : token.Framed delimiters body) : body ≠ [] := by
  obtain ⟨inner, rfl, _, _⟩ := framed
  simp [delimiters.opener.nonempty]

namespace Tiles

theorem filled {delimiters : Delimiters} {offset : Nat} {text : List Char} {tokens : List Token}
    (tiles : Tiles delimiters offset text tokens) :
    ∀ token ∈ tokens, token.span.first < token.span.stop := by
  induction tiles with
  | nil => simp
  | gap _ _ ih => exact ih
  | text nonempty _ _ _ ih =>
      have wide := Text.width_pos nonempty
      exact List.forall_mem_cons.2 ⟨by dsimp only; omega, ih⟩
  | tag _ framed span _ ih =>
      have wide := Text.width_pos framed.ne_nil
      exact List.forall_mem_cons.2 ⟨by rw [span]; dsimp only; omega, ih⟩

theorem ascending {delimiters : Delimiters} {offset : Nat} {text : List Char}
    {tokens : List Token} (tiles : Tiles delimiters offset text tokens) :
    tokens.Pairwise fun earlier later => earlier.span.stop ≤ later.span.first := by
  induction tiles with
  | nil => exact .nil
  | gap _ _ ih => exact ih
  | text _ _ _ behind ih => exact .cons behind.first_behind ih
  | tag _ _ span behind ih =>
      refine .cons ?_ ih
      rw [span]
      exact behind.first_behind

theorem texts_apart {delimiters : Delimiters} {offset : Nat} {text : List Char}
    {tokens : List Token} (tiles : Tiles delimiters offset text tokens) :
    tokens.IsChain fun token next => token.kind = .text → next.kind ≠ .text := by
  induction tiles with
  | nil => exact .nil
  | gap _ _ ih => exact ih
  | text _ _ next _ ih => exact List.isChain_cons.2 ⟨fun token head _ => next token head, ih⟩
  | tag tagged _ _ _ ih =>
      exact List.isChain_cons.2 ⟨fun _ _ kind => absurd kind tagged, ih⟩

theorem held {delimiters : Delimiters} {offset : Nat} {text : List Char} {tokens : List Token}
    (tiles : Tiles delimiters offset text tokens) (passed : List Char)
    (starts : Text.width passed = offset) (before : List Token) (token : Token)
    (after : List Token) (split : tokens = before ++ token :: after) :
    ∃ body, token.span.Holds (passed ++ text) body ∧
      (token.kind = .text → token.value.toList = body) ∧
      (token.kind ≠ .text → token.Framed (delimiters.behind before) body) := by
  induction tiles generalizing passed before with
  | nil => simp at split
  | @gap _ _ c rest _ _ _ ih =>
      have later := ih (passed ++ [c]) (by simp [Text.width, starts]) before split
      rwa [List.append_assoc] at later
  | @text delimiters _ body rest value _ _ holds _ _ ih =>
      cases before with
      | nil =>
          obtain ⟨rfl, rfl⟩ := List.cons.inj split
          refine ⟨body, ⟨passed, rest, ?_, by rw [starts]⟩, fun _ => holds, fun tagged => ?_⟩
          · rw [List.append_assoc]
          · exact absurd rfl tagged
      | cons first before =>
          obtain ⟨rfl, behindSplit⟩ := List.cons.inj split
          have later := ih (passed ++ body) (by simp [starts]) before behindSplit
          rwa [List.append_assoc] at later
  | @tag delimiters _ body rest first _ tagged framed span _ ih =>
      cases before with
      | nil =>
          obtain ⟨rfl, rfl⟩ := List.cons.inj split
          refine ⟨body, ⟨passed, rest, ?_, by rw [span, starts]⟩, fun kind => ?_, fun _ => framed⟩
          · rw [List.append_assoc]
          · exact absurd kind tagged
      | cons other before =>
          obtain ⟨rfl, behindSplit⟩ := List.cons.inj split
          have later := ih (passed ++ body) (by simp [starts]) before behindSplit
          rwa [List.append_assoc] at later

theorem gaps_blank {delimiters : Delimiters} {offset : Nat} {text : List Char}
    {tokens : List Token} (tiles : Tiles delimiters offset text tokens) (before : List Char)
    (c : Char) (after : List Char) (split : text = before ++ c :: after) (position : Nat)
    (begins : offset + Text.width before ≤ position)
    (ends : position < offset + Text.width before + c.utf8Size)
    (bare : ∀ token ∈ tokens, ¬ (token.span.first ≤ position ∧ position < token.span.stop)) :
    Text.isBlank c = true := by
  -- a character of a token's own body is not bare, any other stands behind that body
  have behindBody : ∀ {body rest before : List Char}, body ++ rest = before ++ c :: after →
      ∀ {offset : Nat}, offset + Text.width before ≤ position →
      position < offset + Text.width before + c.utf8Size →
      ¬ (offset ≤ position ∧ position < offset + Text.width body) →
      ∃ more, before = body ++ more ∧ rest = more ++ c :: after := by
    intro body rest before same offset begins ends outside
    rcases Text.split_append same with ⟨more, rfl⟩ | behind
    · simp only [Text.width_append, Text.width] at outside
      omega
    · exact behind
  induction tiles generalizing before with
  | nil => simp at split
  | gap blank _ ih =>
      cases before with
      | nil =>
          obtain ⟨rfl, _⟩ := List.cons.inj split
          exact blank
      | cons first before =>
          obtain ⟨rfl, restSplit⟩ := List.cons.inj split
          simp only [Text.width] at begins ends
          exact ih before restSplit (by omega) (by omega) bare
  | text _ _ _ _ ih =>
      obtain ⟨outside, laterBare⟩ := List.forall_mem_cons.1 bare
      obtain ⟨more, rfl, restSplit⟩ := behindBody split begins ends outside
      simp only [Text.width_append] at begins ends
      exact ih more restSplit (by omega) (by omega) laterBare
  | tag _ _ span _ ih =>
      obtain ⟨outside, laterBare⟩ := List.forall_mem_cons.1 bare
      rw [span] at outside
      obtain ⟨more, rfl, restSplit⟩ := behindBody split begins ends outside
      simp only [Text.width_append] at begins ends
      exact ih more restSplit (by omega) (by omega) laterBare

theorem tiling {delimiters : Delimiters} {text : List Char} {tokens : List Token}
    (tiles : Tiles delimiters 0 text tokens) : Tiling delimiters text tokens where
  filled := tiles.filled
  ascending := tiles.ascending
  texts_apart := tiles.texts_apart
  held := tiles.held [] rfl
  gaps_blank before c after split position begins ends :=
    tiles.gaps_blank before c after split position (by omega) (by omega)

end Tiles

end Token

/-- What a template keeps of its items tiles it. -/
theorem Token.kept_items_tile {delimiters : Delimiters} {text : List Char} {tokens : List Token}
    (made : Token.ofText delimiters text = .ok tokens) :
    ∃ items, Reading.ofText delimiters 0 text = ⟨items, none⟩ ∧
      tokens = Token.ofItems (settleLines {} items) ∧
      Item.Tiles delimiters 0 text (settleLines {} items) := by
  obtain ⟨items, read, _, same⟩ := Token.of_text_eq_ok_iff.1 made
  have tiles := Reading.of_text_tiles delimiters 0 text (by rw [read])
  rw [read] at tiles
  exact ⟨items, read, same, tiles.thin (Thinned.settle_lines items)⟩

/-- The tokens of a template tile it. No text token is put together over a hole: of two characters
kept one behind the other the second stands right behind the first. -/
theorem tokens_tile_source (delimiters : Delimiters) (source : String) (tokens : List Token)
    (made : Token.ofSource delimiters source = .ok tokens) :
    Token.Tiling delimiters source.toList tokens ∧
      ∃ items, Reading.ofText delimiters 0 source.toList = ⟨items, none⟩ ∧
        tokens = Token.ofItems (settleLines {} items) ∧
        (settleLines {} items).IsChain Item.Touches := by
  obtain ⟨items, read, rfl, tiles⟩ :=
    Token.kept_items_tile (Token.of_source_eq_ok_iff.1 made)
  exact ⟨(Token.tiles_of_items tiles).tiling, items, read, rfl, tiles.touching⟩

/-- Blanks of two and three bytes given up by standalone lines, one of which changes delimiters. -/
theorem standalone_blanks_are_the_only_gaps :
    let source := "é\n\u00a0\x7b\x7b=| |=\x7d\x7d\u2003\n |# s | \n|x|\n|/s|\n"
    let tokens : List Token :=
      [⟨.text, "é\n", ⟨0, 3⟩⟩, ⟨.delimiters, "| |", ⟨5, 14⟩⟩, ⟨.opening, "s", ⟨19, 25⟩⟩,
        ⟨.escaped, "x", ⟨27, 30⟩⟩, ⟨.text, "\n", ⟨30, 31⟩⟩, ⟨.closing, "s", ⟨31, 35⟩⟩]
    Token.ofSource .braces source = .ok tokens ∧
      Token.Tiling .braces source.toList tokens ∧
      ∃ items, Reading.ofText .braces 0 source.toList = ⟨items, none⟩ ∧
        tokens = Token.ofItems (settleLines {} items) ∧
        (settleLines {} items).IsChain Item.Touches := by
  intro source tokens
  have made : Token.ofSource .braces source = .ok tokens := by cbv
  exact ⟨made, tokens_tile_source .braces source tokens made⟩

end Mustache

import Mustache.Proofs.Nesting

/-!
Templates written from their tokens. A tag may have any blanks around its sigil and its value;
they are its padding. As long as each text and each value keeps clear of the delimiter that
ends it, reading what was written gives the kinds and values back, whatever the delimiters
and the padding, and each token where it was written.
-/

namespace Mustache

namespace Text

/-- With the needle put behind it, the text has the needle nowhere but there. -/
def EndsFirst (needle text : List Char) : Prop :=
  ∀ before after, text ++ needle = before ++ needle ++ after → after = []

theorem EndsFirst.tail {needle text : List Char} {c : Char} (clear : EndsFirst needle (c :: text)) :
    EndsFirst needle text := by
  intro before after same
  refine clear (c :: before) after ?_
  rw [List.cons_append, same]
  rfl

theorem EndsFirst.after_none {needle text : List Char} {c : Char}
    (clear : EndsFirst needle (c :: text)) (rest : List Char) :
    after? needle (c :: (text ++ (needle ++ rest))) = none := by
  cases found : after? needle (c :: (text ++ (needle ++ rest))) with
  | none => rfl
  | some suffix =>
      have whole : (c :: text) ++ needle ++ rest = needle ++ suffix := by
        rw [← after_eq_some_iff.1 found]
        simp
      have early : needle <+: (c :: text) ++ needle :=
        List.prefix_of_prefix_length_le ⟨suffix, whole.symm⟩ (List.prefix_append _ rest)
          (by simp only [List.length_append, List.length_cons]; omega)
      obtain ⟨after, same⟩ := early
      have noneLeft : after = [] := clear [] after (by simpa using same.symm)
      have lengths := congrArg List.length same
      simp only [noneLeft, List.length_append, List.length_cons, List.length_nil] at lengths
      omega

theorem after_append_self (needle rest : List Char) : after? needle (needle ++ rest) = some rest :=
  after_eq_some_iff.2 rfl

/-- A text clear of the needle is cut where the needle stands behind it. -/
theorem cut_of_ends_first {needle text : List Char} (clear : EndsFirst needle text)
    (rest : List Char) : cut? needle (text ++ (needle ++ rest)) = some (text, rest) := by
  induction text with
  | nil =>
      have found := after_append_self needle rest
      rw [List.nil_append]
      cases shape : needle ++ rest with
      | nil =>
          rw [shape] at found
          simp [cut?, found]
      | cons c more =>
          rw [shape] at found
          simp [cut?, found]
  | cons c text ih =>
      rw [List.cons_append, cut?, clear.after_none rest, ih clear.tail]
      rfl

theorem ends_first_nil (needle : List Char) : EndsFirst needle [] := by
  intro before after same
  have lengths := congrArg List.length same
  simp only [List.length_append, List.length_nil] at lengths
  exact List.length_eq_zero_iff.1 (by omega)

theorem ends_first_iff {needle text : List Char} :
    EndsFirst needle text ↔ cut? needle (text ++ needle) = some (text, []) := by
  constructor
  · intro clear
    simpa using cut_of_ends_first clear []
  · intro found
    induction text with
    | nil => exact ends_first_nil needle
    | cons c text ih =>
        simp only [List.cons_append, cut?] at found
        split at found
        next => simp at found
        next missing =>
          simp only [Option.map_eq_some_iff, Prod.mk.injEq, List.cons.injEq] at found
          obtain ⟨⟨before, behind⟩, cutRest, ⟨_, rfl⟩, rfl⟩ := found
          have later := ih cutRest
          intro before after same
          cases before with
          | nil =>
              rw [List.nil_append, List.cons_append] at same
              rw [after_eq_some_iff.2 same] at missing
              contradiction
          | cons first before => exact later before after (List.cons.inj same).2

instance (needle text : List Char) : Decidable (EndsFirst needle text) :=
  decidable_of_iff _ ends_first_iff.symm

theorem drop_blank_padded {padding text : List Char} (blank : ∀ c ∈ padding, isBlank c = true)
    (solid : ∀ c ∈ text.head?, isBlank c = false) : dropBlank (padding ++ text) = text := by
  rw [dropBlank, List.dropWhile_append_of_pos blank]
  cases text with
  | nil => rfl
  | cons c rest => exact List.dropWhile_cons_of_neg (by simp [solid c rfl])

theorem trim_end_blank {padding : List Char} (blank : ∀ c ∈ padding, isBlank c = true) :
    trimEnd padding = [] := by
  induction padding with
  | nil => rfl
  | cons c rest ih =>
      have later := ih fun other member => blank other (List.mem_cons_of_mem c member)
      simp [trimEnd, later, blank c List.mem_cons_self]

theorem trim_end_padded {text padding : List Char}
    (solid : ∀ c ∈ text.getLast?, isBlank c = false) (blank : ∀ c ∈ padding, isBlank c = true) :
    trimEnd (text ++ padding) = text := by
  induction text with
  | nil => exact trim_end_blank blank
  | cons c rest ih =>
      rw [List.cons_append, trimEnd]
      cases rest with
      | nil => simp [trim_end_blank blank, solid c rfl]
      | cons next more =>
          rw [ih fun last member => solid last (by simpa using member)]

end Text

/-! ### Writing -/

abbrev Blanks := { text : List Char // ∀ c ∈ text, Text.isBlank c = true }

/-- The blanks in a tag: before its sigil, before its value and behind it. -/
structure Padding where
  beforeSigil : Blanks
  beforeValue : Blanks
  behindValue : Blanks

/-- A token to be written, with the padding that it is to have. -/
inductive Piece
  | text (content : List Char)
  | tag (kind : TokenKind) (value : List Char) (padding : Padding)
  | braced (value : List Char) (padding : Padding)

/-- The sigil a tag of the kind is written with. A name has none. -/
def TokenKind.sigil : TokenKind → List Char
  | .opening => ['#']
  | .inverted => ['^']
  | .closing => ['/']
  | .inclusion => ['>']
  | .unescaped => ['&']
  | .comment => ['!']
  | .text | .escaped | .delimiters => []

def sigils : List Char := ['#', '^', '/', '>', '\x7b', '&', '=', '!']

namespace Piece

def kind : Piece → TokenKind
  | .text _ => .text
  | .tag kind _ _ => kind
  | .braced _ _ => .unescaped

def value : Piece → List Char
  | .text value | .tag _ value _ | .braced value _ => value

/-- What stands between the opener and the closer of a tag. -/
def inner (sigil value mark : List Char) (padding : Padding) : List Char :=
  padding.beforeSigil ++ sigil ++ padding.beforeValue ++ value ++ padding.behindValue ++ mark

def written (delimiters : Delimiters) : Piece → List Char
  | .text content => content
  | .tag kind value padding =>
      delimiters.opener.chars ++ inner kind.sigil value [] padding ++ delimiters.closer.chars
  | .braced value padding =>
      delimiters.opener.chars ++ inner ['\x7b'] value ['\x7d'] padding ++ delimiters.closer.chars

def writtenAll (delimiters : Delimiters) (pieces : List Piece) : List Char :=
  pieces.flatMap (written delimiters)

/-- Where the pieces stand that are written from the byte position on. -/
def spansFrom (delimiters : Delimiters) (offset : Nat) : List Piece → List Span
  | [] => []
  | piece :: rest =>
      let stop := offset + Text.width (piece.written delimiters)
      ⟨offset, stop⟩ :: spansFrom delimiters stop rest

/-- The piece keeps clear of the delimiters around it. -/
inductive Fits (delimiters : Delimiters) : Piece → Prop
  | text {content : List Char} (nonempty : content ≠ []) (unbroken : '\n' ∉ content)
      (clear : Text.EndsFirst delimiters.opener.chars content) : Fits delimiters (.text content)
  | tag {kind : TokenKind} {value : List Char} {padding : Padding} (sigil : kind.sigil ≠ [])
      (trimmed : Text.Trimmed value)
      (clear : Text.EndsFirst delimiters.closer.chars (value ++ padding.behindValue)) :
      Fits delimiters (.tag kind value padding)
  | name {value : List Char} {padding : Padding} (nonempty : value ≠ [])
      (unmarked : ∀ c ∈ value.head?, c ∉ sigils) (trimmed : Text.Trimmed value)
      (clear : Text.EndsFirst delimiters.closer.chars (value ++ padding.behindValue)) :
      Fits delimiters (.tag .escaped value padding)
  | braced {value : List Char} {padding : Padding} (trimmed : Text.Trimmed value)
      (clear : Text.EndsFirst ('\x7d' :: delimiters.closer.chars)
        (value ++ padding.behindValue)) :
      Fits delimiters (.braced value padding)

def mark (piece : Piece) : TokenKind × String := (piece.kind, String.ofList piece.value)

end Piece

/-! ### Reading a tag that was written -/

namespace Tag

theorem ending_in_padded (kind : TokenKind) {closing value : List Char} (before behind : Blanks)
    (nonempty : closing ≠ []) (solid : ∀ c ∈ closing.head?, Text.isBlank c = false)
    (trimmed : Text.Trimmed value) (clear : Text.EndsFirst closing (value ++ behind))
    (rest : List Char) :
    endingIn kind closing (before ++ (value ++ (behind ++ (closing ++ rest)))) =
      some ⟨kind, value, rest⟩ := by
  cases value with
  | nil =>
      have padding : ∀ c ∈ (before : List Char) ++ behind, Text.isBlank c = true :=
        List.forall_mem_append.2 ⟨before.2, behind.2⟩
      have stops : ∀ c ∈ (closing ++ rest).head?, Text.isBlank c = false := by
        cases closing with
        | nil => contradiction
        | cons first more => simpa using solid
      have found := Text.cut_of_ends_first (Text.ends_first_nil closing) rest
      rw [List.nil_append] at found ⊢
      rw [endingIn, ← List.append_assoc, Text.drop_blank_padded padding stops, found]
      rfl
  | cons first more =>
      have found := Text.cut_of_ends_first clear rest
      rw [List.append_assoc] at found
      have stops : ∀ c ∈ ((first :: more) ++ (behind ++ (closing ++ rest))).head?,
          Text.isBlank c = false := trimmed.1
      rw [endingIn, Text.drop_blank_padded before.2 stops, found]
      simp only [Option.map_some, Text.trim_end_padded trimmed.2 behind.2]

theorem read_marked {kind : TokenKind} (sigil : kind.sigil ≠ []) (closer body : List Char)
    (before : Blanks) : read closer (before ++ (kind.sigil ++ body)) = endingIn kind closer body := by
  have solid : ∀ c ∈ (kind.sigil ++ body).head?, Text.isBlank c = false := by
    cases kind with
    | text | escaped | delimiters => contradiction
    | _ => simp [TokenKind.sigil, Text.isBlank, Text.blankCodes]
  rw [read, Text.drop_blank_padded before.2 solid]
  cases kind with
  | text | escaped | delimiters => contradiction
  | _ => rfl

theorem read_braced (closer body : List Char) (before : Blanks) :
    read closer (before ++ '\x7b' :: body) = endingIn .unescaped ('\x7d' :: closer) body := by
  have solid : ∀ c ∈ ('\x7b' :: body).head?, Text.isBlank c = false := by
    simp [Text.isBlank, Text.blankCodes]
  rw [read, Text.drop_blank_padded before.2 solid]
  rfl

/-- Without a sigil a tag is a name, and what begins it is part of its value. -/
theorem read_unmarked {c : Char} (unmarked : c ∉ sigils) (solid : Text.isBlank c = false)
    (closer body : List Char) (before : Blanks) :
    read closer (before ++ c :: body) = endingIn .escaped closer (c :: body) := by
  rw [read, Text.drop_blank_padded before.2 (by simpa using solid)]
  simp only [sigils, List.mem_cons, List.not_mem_nil, or_false, not_or] at unmarked
  have noKind : kindOfSigil c = none := by
    simp only [kindOfSigil]
    split <;> simp_all
  simp only [unmarked, noKind, if_false]

end Tag

namespace Piece

variable {delimiters : Delimiters}

theorem after_opener (delimiters : Delimiters) (inner rest : List Char) :
    Text.after? delimiters.opener.chars
        (delimiters.opener.chars ++ inner ++ delimiters.closer.chars ++ rest) =
      some (inner ++ (delimiters.closer.chars ++ rest)) := by
  rw [List.append_assoc, List.append_assoc, Text.after_append_self]

/-- What a written tag is read as, whatever follows it. -/
theorem Fits.reads {piece : Piece} (fits : piece.Fits delimiters) (tagged : piece.kind ≠ .text)
    (rest : List Char) :
    ∃ behind, Text.after? delimiters.opener.chars (piece.written delimiters ++ rest) = some behind ∧
      Tag.read delimiters.closer.chars behind = some ⟨piece.kind, piece.value, rest⟩ := by
  have closerSolid : ∀ c ∈ delimiters.closer.chars.head?, Text.isBlank c = false :=
    fun c head => delimiters.closer.solid c (List.mem_of_head? head)
  cases fits with
  | text _ _ _ => exact absurd rfl tagged
  | @tag kind value padding sigil trimmed clear =>
      refine ⟨_, after_opener delimiters _ rest, ?_⟩
      simp only [inner, List.append_assoc, List.nil_append]
      rw [Tag.read_marked sigil]
      exact Tag.ending_in_padded _ _ _ delimiters.closer.nonempty closerSolid trimmed clear rest
  | @name value padding nonempty unmarked trimmed clear =>
      refine ⟨_, after_opener delimiters _ rest, ?_⟩
      obtain ⟨c, more, rfl⟩ := List.exists_cons_of_ne_nil nonempty
      let before : Blanks := ⟨padding.beforeSigil ++ padding.beforeValue,
        List.forall_mem_append.2 ⟨padding.beforeSigil.2, padding.beforeValue.2⟩⟩
      have read := Tag.read_unmarked (unmarked c rfl) (trimmed.1 c rfl) delimiters.closer.chars
        (more ++ (padding.behindValue ++ (delimiters.closer.chars ++ rest))) before
      have ends := Tag.ending_in_padded .escaped ⟨[], by simp⟩ padding.behindValue
        delimiters.closer.nonempty closerSolid trimmed clear rest
      rw [List.nil_append, List.cons_append] at ends
      rw [ends] at read
      simpa only [inner, TokenKind.sigil, before, kind, value, List.append_assoc,
        List.cons_append, List.nil_append] using read
  | @braced value padding trimmed clear =>
      refine ⟨_, after_opener delimiters _ rest, ?_⟩
      simp only [inner, List.append_assoc, List.cons_append, List.nil_append]
      rw [Tag.read_braced]
      exact Tag.ending_in_padded _ _ _ (List.cons_ne_nil _ _)
        (by simp [Text.isBlank, Text.blankCodes]) trimmed clear rest

theorem Fits.opens {piece : Piece} (fits : piece.Fits delimiters) (tagged : piece.kind ≠ .text) :
    ∃ behind, piece.written delimiters = delimiters.opener.chars ++ behind := by
  obtain ⟨behind, opened, _⟩ := fits.reads tagged []
  exact ⟨behind, by simpa using Text.after_eq_some_iff.1 opened⟩

theorem Fits.kind_ne_delimiters {piece : Piece} (fits : piece.Fits delimiters) :
    piece.kind ≠ .delimiters := by
  cases fits with
  | tag sigil _ _ =>
      rintro rfl
      exact sigil rfl
  | text _ _ _ | name _ _ _ _ | braced _ _ => simp [kind]

end Piece

/-! ### Reading what was written -/

namespace Item

/-- Characters that stand one behind the other from the byte position on. -/
def ofChars (offset : Nat) : List Char → List Item
  | [] => []
  | c :: rest => .char offset c :: ofChars (offset + c.utf8Size) rest

theorem of_chars_unbroken {offset : Nat} {text : List Char} (unbroken : '\n' ∉ text) :
    ∀ item ∈ ofChars offset text, item.isLineFeed = false := by
  induction text generalizing offset with
  | nil => simp [ofChars]
  | cons c rest ih =>
      simp only [List.mem_cons, not_or] at unbroken
      refine List.forall_mem_cons.2 ⟨?_, ih unbroken.2⟩
      simpa [isLineFeed, eq_comm] using unbroken.1

end Item

namespace Token

theorem of_items_of_chars {offset : Nat} {content : List Char} (nonempty : content ≠ [])
    {items : List Item}
    (apart : ∀ token, (ofItems items).head? = some token → token.kind ≠ .text) :
    ofItems (Item.ofChars offset content ++ items) =
      ⟨.text, String.ofList content, ⟨offset, offset + Text.width content⟩⟩ :: ofItems items := by
  induction content generalizing offset with
  | nil => contradiction
  | cons c rest ih =>
      rw [Item.ofChars, List.cons_append, ofItems]
      cases rest with
      | nil =>
          rw [Item.ofChars, List.nil_append, cons_char_apart offset c apart]
          simp [ofRun, Text.width]
      | cons next more =>
          rw [ih (List.cons_ne_nil next more), consChar]
          simp [Text.width, Nat.add_assoc]

end Token

namespace Piece

variable {delimiters : Delimiters}

def token (delimiters : Delimiters) (offset : Nat) (piece : Piece) : Token :=
  ⟨piece.kind, String.ofList piece.value,
    ⟨offset, offset + Text.width (piece.written delimiters)⟩⟩

def items (delimiters : Delimiters) (offset : Nat) (piece : Piece) : List Item :=
  match piece with
  | .text content => Item.ofChars offset content
  | .tag _ _ _ | .braced _ _ => [.tag (piece.token delimiters offset)]

def tokensFrom (delimiters : Delimiters) (offset : Nat) : List Piece → List Token
  | [] => []
  | piece :: rest =>
      piece.token delimiters offset ::
        tokensFrom delimiters (offset + Text.width (piece.written delimiters)) rest

def itemsFrom (delimiters : Delimiters) (offset : Nat) : List Piece → List Item
  | [] => []
  | piece :: rest =>
      piece.items delimiters offset ++
        itemsFrom delimiters (offset + Text.width (piece.written delimiters)) rest

theorem read_chars {content rest : List Char} {offset : Nat}
    (clear : Text.EndsFirst delimiters.opener.chars content)
    (follows : rest = [] ∨ ∃ more, rest = delimiters.opener.chars ++ more) :
    Reading.ofText delimiters offset (content ++ rest) =
      (Reading.ofText delimiters (offset + Text.width content) rest).behind
        (Item.ofChars offset content) := by
  induction content generalizing offset with
  | nil => rfl
  | cons c content ih =>
      have apart : Text.after? delimiters.opener.chars (c :: (content ++ rest)) = none := by
        rcases follows with rfl | ⟨more, rfl⟩
        · rw [List.append_nil]
          cases found : Text.after? delimiters.opener.chars (c :: content) with
          | none => rfl
          | some suffix =>
              have stays := Text.after_append found (delimiters.opener.chars ++ [])
              rw [List.cons_append, clear.after_none []] at stays
              contradiction
        · exact clear.after_none more
      rw [List.cons_append, Reading.of_text_char apart, ih clear.tail, Text.width, Nat.add_assoc]
      rfl

theorem Fits.reading_of_tag {piece : Piece} (fits : piece.Fits delimiters)
    (tagged : piece.kind ≠ .text) (offset : Nat) (rest : List Char) :
    Reading.ofText delimiters offset (piece.written delimiters ++ rest) =
      (Reading.ofText delimiters (offset + Text.width (piece.written delimiters)) rest).cons
        (.tag (piece.token delimiters offset)) := by
  obtain ⟨behind, opened, made⟩ := fits.reads tagged rest
  have width : Text.width (piece.written delimiters ++ rest) - Text.width rest =
      Text.width (piece.written delimiters) := by
    rw [Text.width_append]
    omega
  have fit : Tag.delimitersAfter ⟨piece.kind, piece.value, rest⟩ delimiters = .ok delimiters :=
    if_neg fits.kind_ne_delimiters
  cases shape : piece.written delimiters ++ rest with
  | nil =>
      rw [shape] at opened
      have solid := Text.after_eq_some_iff.1 opened
      simp [delimiters.opener.nonempty] at solid
  | cons c text =>
      rw [shape] at opened width
      rw [Reading.of_text_tag opened made fit]
      simp only [width, token]

/-- One piece is read as its own items, if a text has nothing or an opener behind it. -/
theorem Fits.reading {piece : Piece} (fits : piece.Fits delimiters) {rest : List Char}
    (follows : piece.kind = .text → rest = [] ∨ ∃ more, rest = delimiters.opener.chars ++ more)
    (offset : Nat) :
    Reading.ofText delimiters offset (piece.written delimiters ++ rest) =
      (Reading.ofText delimiters (offset + Text.width (piece.written delimiters)) rest).behind
        (piece.items delimiters offset) := by
  have ofTag := fits.reading_of_tag
  cases fits with
  | text _ _ clear => exact read_chars clear (follows rfl)
  | tag sigil _ _ =>
      refine ofTag ?_ offset rest
      rintro rfl
      exact sigil rfl
  | name _ _ _ _ | braced _ _ => exact ofTag (by simp [kind]) offset rest

theorem Fits.of_items {piece : Piece} (fits : piece.Fits delimiters) (offset : Nat)
    {items : List Item}
    (apart : piece.kind = .text →
      ∀ token, (Token.ofItems items).head? = some token → token.kind ≠ .text) :
    Token.ofItems (piece.items delimiters offset ++ items) =
      piece.token delimiters offset :: Token.ofItems items := by
  cases fits with
  | text nonempty _ _ => exact Token.of_items_of_chars nonempty (apart rfl)
  | tag _ _ _ | name _ _ _ _ | braced _ _ => rfl

theorem Fits.items_unbroken {piece : Piece} (fits : piece.Fits delimiters) (offset : Nat) :
    ∀ item ∈ piece.items delimiters offset, item.isLineFeed = false := by
  cases fits with
  | text _ unbroken _ => exact Item.of_chars_unbroken unbroken
  | tag _ _ _ | name _ _ _ _ | braced _ _ => simp [items, Item.isLineFeed]

section Whole

variable {pieces : List Piece} (fits : ∀ piece ∈ pieces, piece.Fits delimiters)
  (apart : pieces.IsChain fun piece next => piece.kind = .text → next.kind ≠ .text)

include fits

theorem written_all_begins (tagged : ∀ piece ∈ pieces.head?, piece.kind ≠ .text) :
    writtenAll delimiters pieces = [] ∨
      ∃ more, writtenAll delimiters pieces = delimiters.opener.chars ++ more := by
  cases pieces with
  | nil => exact Or.inl rfl
  | cons piece rest =>
      obtain ⟨behind, opens⟩ := (fits piece List.mem_cons_self).opens (tagged piece rfl)
      right
      refine ⟨behind ++ writtenAll delimiters rest, ?_⟩
      rw [writtenAll, List.flatMap_cons, opens, List.append_assoc, writtenAll]

theorem items_from_unbroken (offset : Nat) :
    ∀ item ∈ itemsFrom delimiters offset pieces, item.isLineFeed = false := by
  induction pieces generalizing offset with
  | nil => simp [itemsFrom]
  | cons piece rest ih =>
      obtain ⟨own, others⟩ := List.forall_mem_cons.1 fits
      exact List.forall_mem_append.2 ⟨own.items_unbroken offset, ih others _⟩

include apart

theorem reading_of_written (offset : Nat) :
    Reading.ofText delimiters offset (writtenAll delimiters pieces) =
      ⟨itemsFrom delimiters offset pieces, none⟩ := by
  induction pieces generalizing offset with
  | nil => simp [writtenAll, itemsFrom, Reading.ofText]
  | cons piece rest ih =>
      obtain ⟨own, others⟩ := List.forall_mem_cons.1 fits
      obtain ⟨next, apartBehind⟩ := List.isChain_cons.1 apart
      have follows : piece.kind = .text → writtenAll delimiters rest = [] ∨
          ∃ more, writtenAll delimiters rest = delimiters.opener.chars ++ more :=
        fun text => written_all_begins others fun other head => next other head text
      have whole : writtenAll delimiters (piece :: rest) =
          piece.written delimiters ++ writtenAll delimiters rest := List.flatMap_cons
      rw [whole, own.reading follows, ih others apartBehind]
      rfl

theorem of_items_from (offset : Nat) :
    Token.ofItems (itemsFrom delimiters offset pieces) = tokensFrom delimiters offset pieces := by
  induction pieces generalizing offset with
  | nil => rfl
  | cons piece rest ih =>
      obtain ⟨own, others⟩ := List.forall_mem_cons.1 fits
      obtain ⟨next, apartBehind⟩ := List.isChain_cons.1 apart
      rw [itemsFrom, own.of_items, ih others apartBehind, tokensFrom]
      intro text token head
      rw [ih others apartBehind] at head
      cases rest with
      | nil => simp [tokensFrom] at head
      | cons other more =>
          rw [← Option.some.inj head]
          exact next other rfl text

end Whole

theorem tokens_from_marks (delimiters : Delimiters) (offset : Nat) (pieces : List Piece) :
    (tokensFrom delimiters offset pieces).map Token.mark = pieces.map mark := by
  induction pieces generalizing offset with
  | nil => rfl
  | cons piece rest ih =>
      rw [tokensFrom, List.map_cons, ih, List.map_cons]
      rfl

theorem tokens_from_spans (delimiters : Delimiters) (offset : Nat) (pieces : List Piece) :
    (tokensFrom delimiters offset pieces).map Token.span = spansFrom delimiters offset pieces := by
  induction pieces generalizing offset with
  | nil => rfl
  | cons piece rest ih =>
      rw [tokensFrom, List.map_cons, ih, spansFrom]
      rfl

end Piece

/-- Tokens written in any padding, between any delimiters that they keep clear of, are read back as
they are, each where it was written. -/
theorem written_tokens_are_read_back (delimiters : Delimiters) (pieces : List Piece)
    (fits : ∀ piece ∈ pieces, piece.Fits delimiters)
    (apart : pieces.IsChain fun piece next => piece.kind = .text → next.kind ≠ .text)
    (nested : WellNested sectionLimit (pieces.map Piece.mark)) :
    ∃ tokens,
      Token.ofSource delimiters (String.ofList (Piece.writtenAll delimiters pieces)) = .ok tokens ∧
        tokens.map Token.mark = pieces.map Piece.mark ∧
        tokens.map Token.span = Piece.spansFrom delimiters 0 pieces := by
  have marks := Piece.tokens_from_marks delimiters 0 pieces
  refine ⟨_, ?_, marks, Piece.tokens_from_spans delimiters 0 pieces⟩
  have tokens := Piece.of_items_from fits apart 0
  have unbroken := Piece.items_from_unbroken fits 0
  have settled := settle_lines_eq_kept [] (Piece.itemsFrom delimiters 0 pieces) (by simp) unbroken
  have balanced : (Piece.tokensFrom delimiters 0 pieces).foldlM Token.shiftSections [] =
      .ok [] := nested.balanced marks (by simp)
  rw [Token.of_source_eq_ok_iff, String.toList_ofList, Token.of_text_eq_ok_iff]
  refine ⟨_, Piece.reading_of_written fits apart 0, ?_, ?_⟩
  · rw [← Token.fold_sections_of_items, tokens, balanced]
  · rw [← tokens]
    exact congrArg Token.ofItems settled.symm

/-- Tags whose values and texts share characters with the delimiters and the sigils. -/
theorem values_may_share_characters_with_delimiters :
    let delimiters : Delimiters :=
      ⟨⟨['=', '#'], by simp, by simp [Text.isBlank, Text.blankCodes]⟩,
        ⟨['\x7d', '='], by simp, by simp [Text.isBlank, Text.blankCodes]⟩⟩
    let tight : Blanks := ⟨[], by simp⟩
    let wide : Blanks := ⟨[' ', '\n', '\u2003'], by simp [Text.isBlank, Text.blankCodes]⟩
    let pieces : List Piece :=
      [.text ['é', '='], .tag .opening ['\x7d'] ⟨tight, wide, tight⟩,
        .tag .escaped ['x', ' ', '\x7d'] ⟨wide, tight, wide⟩,
        .braced ['\x7b', '\x7d'] ⟨tight, tight, tight⟩, .tag .closing ['\x7d'] ⟨wide, wide, wide⟩]
    (∀ piece ∈ pieces, piece.Fits delimiters) ∧
      (pieces.IsChain fun piece next => piece.kind = .text → next.kind ≠ .text) ∧
      WellNested sectionLimit (pieces.map Piece.mark) ∧
      ∃ tokens,
        Token.ofSource delimiters (String.ofList (Piece.writtenAll delimiters pieces)) =
            .ok tokens ∧
          tokens.map Token.mark = pieces.map Piece.mark ∧
          tokens.map Token.span = Piece.spansFrom delimiters 0 pieces := by
  intro delimiters tight wide pieces
  have trimmed : Text.Trimmed ['\x7d'] ∧ Text.Trimmed ['x', ' ', '\x7d'] ∧
      Text.Trimmed ['\x7b', '\x7d'] := by
    simp [Text.Trimmed, Text.isBlank, Text.blankCodes]
  obtain ⟨brace, word, braces⟩ := trimmed
  have fits : ∀ piece ∈ pieces, piece.Fits delimiters := by
    simp only [pieces, List.forall_mem_cons]
    refine ⟨.text (by decide) (by decide) (by decide), ?_, ?_, ?_, ?_, by simp⟩
    · exact .tag (by decide) brace (by decide)
    · exact .name (by decide) (by simp [sigils]) word (by decide)
    · exact .braced braces (by decide)
    · exact .tag (by decide) brace (by decide)
  have apart : pieces.IsChain fun piece next => piece.kind = .text → next.kind ≠ .text := by
    simp [pieces, Piece.kind]
  have nested : WellNested sectionLimit (pieces.map Piece.mark) :=
    .leaf rfl (by decide) (.within rfl (.leaf rfl (by decide) (.leaf rfl (by decide) .nil)) .nil)
  exact ⟨fits, apart, nested, written_tokens_are_read_back delimiters pieces fits apart nested⟩

end Mustache

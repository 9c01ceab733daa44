import Mustache.Proofs.Cursors
import Mustache.Proofs.DelimiterWords

/-!
Scanning a template with a cursor, tag by tag. A turn passes the text in front of an opener and the
tag behind it. It leaves the cursor at least an opener further on or ends the scan, and it takes no
character apart. The scan comes to what reading the template comes to; a tag that is never closed is
noticed with the cursor at the end of the text.
-/

namespace Mustache

/-! ### One tag -/

/-- The kind that what was found in the place of a sigil gives to a tag. -/
def TokenKind.ofSigil : Option (List Char) → TokenKind
  | some ['='] => .delimiters
  | some ['\x7b'] => .unescaped
  | some [c] => (Tag.kindOfSigil c).getD .escaped
  | _ => .escaped

namespace Delimiters

def opening (delimiters : Delimiters) : Sought := .literal delimiters.opener.chars false true

def closing (delimiters : Delimiters) : Sought := .literal delimiters.closer.chars true false

def closingBrace (delimiters : Delimiters) : Sought :=
  .literal ('\x7d' :: delimiters.closer.chars) true false

/-- All that a scan looks for under these delimiters. -/
def sought (delimiters : Delimiters) : List Sought :=
  [.blanks, .sigil, delimiters.opening, delimiters.closing, delimiters.closingBrace,
    .literal ['='] true false, .literal ['\x7d'] true false]

theorem closer_solid (delimiters : Delimiters) :
    ∀ c ∈ delimiters.closer.chars.head?, Text.isBlank c = false :=
  fun c head => delimiters.closer.solid c (List.mem_of_head? head)

theorem sought_fits (delimiters : Delimiters) : ∀ sought ∈ delimiters.sought, sought.Fits := by
  have openerSolid : ∀ c ∈ delimiters.opener.chars.head?, Text.isBlank c = false :=
    fun c head => delimiters.opener.solid c (List.mem_of_head? head)
  simp only [sought, List.forall_mem_cons, List.not_mem_nil, false_implies, implies_true, and_true,
    opening, closing, closingBrace, Sought.Fits, true_and]
  refine ⟨⟨delimiters.opener.nonempty, openerSolid⟩,
    ⟨delimiters.closer.nonempty, delimiters.closer_solid⟩, ?_, ?_, ?_⟩
  all_goals simp [Text.isBlank, Text.blankCodes]

end Delimiters

theorem Text.cut_nil {needle : List Char} (nonempty : needle ≠ []) :
    Text.cut? needle [] = none := by
  cases cut : Text.cut? needle [] with
  | none => rfl
  | some pair => exact absurd rfl (Text.cut_ne_nil nonempty cut)

theorem Text.width_le_of_suffix {text rest : List Char} (suffix : rest <:+ text) :
    Text.width rest ≤ Text.width text := by
  obtain ⟨front, rfl⟩ := suffix
  rw [Text.width_append]
  exact Nat.le_add_left _ _

namespace Scan

/-- Scans a value that ends in front of the first text, then over the second and on to a closer. -/
def marked (search : Search) (delimiters : Delimiters) (ending mark : Sought) :
    Scan (List Char) := do
  let value ← Cursor.goUpTo search ending
  let _ ← Cursor.stepOver mark
  let _ ← Cursor.goUpTo search delimiters.closing
  return value

/-- Scans a tag from behind its opener: its kind, its value, and whether a closer ends it. -/
def tag (search : Search) (delimiters : Delimiters) : Scan (TokenKind × List Char × Bool) := do
  let sigil ← Cursor.stepOver .sigil
  let _ ← Cursor.stepOver .blanks
  let value ←
    if sigil = some ['='] then
      marked search delimiters (.literal ['='] true false) (.literal ['='] true false)
    else if sigil = some ['\x7b'] then
      marked search delimiters delimiters.closingBrace (.literal ['\x7d'] true false)
    else Cursor.goUpTo search delimiters.closing
  let closer ← Cursor.stepOver delimiters.closing
  return (TokenKind.ofSigil sigil, value, closer.isSome)

/-- Scanning a tag comes to the tag, or to the end of the text if there is none. -/
def Meets (source : List Char) (scan : Scan (TokenKind × List Char × Bool)) (rest : List Char) :
    Option Tag → Prop
  | some tag => Leads source scan rest (tag.kind, tag.value, true) tag.rest
  | none => ∃ kind value, Leads source scan rest (kind, value, false) []

variable {α : Type} {source rest left behind front : List Char} {search : Search}
  {delimiters : Delimiters}

theorem Leads.meets {first : Scan α} {value : α}
    {goesOn : α → Scan (TokenKind × List Char × Bool)} {tag : Option Tag}
    (leads : Leads source first rest value left) (meets : Meets source (goesOn value) left tag) :
    Meets source (first >>= goesOn) rest tag := by
  cases tag with
  | some tag => exact leads.bind meets
  | none =>
      obtain ⟨kind, value, goesOn⟩ := meets
      exact ⟨kind, value, leads.bind goesOn⟩

/-- The end of a tag: the closer is stepped over where the cursor was moved up to one. -/
theorem meets_closer (blanks : Blanks) (kind : TokenKind) (value : List Char) :
    Meets source
      (do
        let closer ← Cursor.stepOver delimiters.closing
        return (kind, value, closer.isSome))
      (blanks ++ (delimiters.closer.chars ++ rest)) (some ⟨kind, value, rest⟩) :=
  (leads_over_mark delimiters.closer.nonempty delimiters.closer_solid blanks).bind (.pure _ _ _)

theorem meets_end (kind : TokenKind) (value : List Char) :
    Meets source
      (do
        let closer ← Cursor.stepOver delimiters.closing
        return (kind, value, closer.isSome)) [] none :=
  ⟨kind, value, (leads_over_nothing delimiters.closer.nonempty).bind (.pure _ _ _)⟩

theorem meets_plain (source : List Char) (delimiters : Delimiters) (finds : search.FindsFirst)
    (kind : TokenKind) (rest : List Char) :
    Meets source
      (do
        let value ← Cursor.goUpTo search delimiters.closing
        let closer ← Cursor.stepOver delimiters.closing
        return (kind, value, closer.isSome))
      rest ((Text.cut? delimiters.closer.chars rest).map fun pair =>
        ⟨kind, Text.trimEnd pair.1, pair.2⟩) := by
  cases found : Text.cut? delimiters.closer.chars rest with
  | none => exact (leads_to_end finds delimiters.closer.nonempty found).meets (meets_end _ _)
  | some pair =>
      obtain ⟨blanks, leads⟩ := leads_up_to_mark source finds delimiters.closer.nonempty found
      exact leads.meets (meets_closer blanks _ _)

/-- A value that a mark ends. Behind the mark a closer is looked for in what it left of the text. -/
theorem meets_marked (finds : search.FindsFirst) (kind : TokenKind) {ending mark : List Char}
    (endingNonempty : ending ≠ []) (markNonempty : mark ≠ [])
    (solid : ∀ c ∈ mark.head?, Text.isBlank c = false) (after : List Char → List Char)
    (passes : ∀ behind, ending ++ behind = mark ++ after behind) (rest : List Char) :
    Meets source
      (do
        let value ← marked search delimiters (.literal ending true false) (.literal mark true false)
        let closer ← Cursor.stepOver delimiters.closing
        return (kind, value, closer.isSome))
      rest ((Text.cut? ending rest).bind fun pair =>
        (Text.cut? delimiters.closer.chars (after pair.2)).map fun closed =>
          ⟨kind, Text.trimEnd pair.1, closed.2⟩) := by
  have closerNonempty := delimiters.closer.nonempty
  cases found : Text.cut? ending rest with
  | none =>
      have endReached := Text.cut_nil closerNonempty
      have leads : Leads source (marked search delimiters (.literal ending true false)
          (.literal mark true false)) rest rest [] :=
        (leads_to_end finds endingNonempty found).bind
          ((leads_over_nothing markNonempty).bind
            ((leads_to_end finds closerNonempty endReached).bind (.pure _ _ _)))
      exact leads.meets (meets_end _ _)
  | some pair =>
      obtain ⟨front, behind⟩ := pair
      obtain ⟨blanks, upTo⟩ := leads_up_to_mark source finds endingNonempty found
      rw [passes behind] at upTo
      have toMark : Leads source (Cursor.stepOver (.literal mark true false))
          (blanks ++ (mark ++ after behind)) _ (after behind) :=
        leads_over_mark markNonempty solid blanks
      rw [Option.bind_some]
      cases closed : Text.cut? delimiters.closer.chars (after behind) with
      | none =>
          have leads : Leads source (marked search delimiters (.literal ending true false)
              (.literal mark true false)) rest (Text.trimEnd front) [] :=
            upTo.bind (toMark.bind ((leads_to_end finds closerNonempty closed).bind
              (.pure _ _ _)))
          exact leads.meets (meets_end _ _)
      | some pair =>
          obtain ⟨padding, toCloser⟩ := leads_up_to_mark source finds closerNonempty
            closed
          have leads : Leads source (marked search delimiters (.literal ending true false)
              (.literal mark true false)) rest (Text.trimEnd front)
                (padding ++ (delimiters.closer.chars ++ pair.2)) :=
            upTo.bind (toMark.bind (toCloser.bind (.pure _ _ _)))
          exact leads.meets (meets_closer padding _ _)

theorem meets_change (finds : search.FindsFirst) (body : List Char) :
    Meets source
      (do
        let value ← marked search delimiters (.literal ['='] true false) (.literal ['='] true false)
        let closer ← Cursor.stepOver delimiters.closing
        return (.delimiters, value, closer.isSome))
      (Text.dropBlank body) (Tag.delimiterChange delimiters.closer.chars body) := by
  have same : Tag.delimiterChange delimiters.closer.chars body =
      (Text.cut? ['='] (Text.dropBlank body)).bind fun pair =>
        (Text.cut? delimiters.closer.chars pair.2).map fun closed =>
          ⟨.delimiters, Text.trimEnd pair.1, closed.2⟩ := by
    simp only [Tag.delimiterChange]
    cases Text.cut? ['='] (Text.dropBlank body) with
    | none => rfl
    | some pair =>
        simp only [Option.bind_some]
        cases Text.cut? delimiters.closer.chars pair.2 <;> rfl
  rw [same]
  exact meets_marked finds .delimiters (List.cons_ne_nil '=' []) (List.cons_ne_nil '=' [])
    (by simp [Text.isBlank, Text.blankCodes]) id (fun _ => rfl) (Text.dropBlank body)

theorem meets_braced (finds : search.FindsFirst) (body : List Char) :
    Meets source
      (do
        let value ← marked search delimiters delimiters.closingBrace (.literal ['\x7d'] true false)
        let closer ← Cursor.stepOver delimiters.closing
        return (.unescaped, value, closer.isSome))
      (Text.dropBlank body)
      (Tag.endingIn .unescaped ('\x7d' :: delimiters.closer.chars) body) := by
  have same : Tag.endingIn .unescaped ('\x7d' :: delimiters.closer.chars) body =
      (Text.cut? ('\x7d' :: delimiters.closer.chars) (Text.dropBlank body)).bind fun pair =>
        (Text.cut? delimiters.closer.chars (delimiters.closer.chars ++ pair.2)).map fun closed =>
          ⟨.unescaped, Text.trimEnd pair.1, closed.2⟩ := by
    have closes (rest : List Char) :
        Text.cut? delimiters.closer.chars (delimiters.closer.chars ++ rest) = some ([], rest) :=
      Text.cut_of_ends_first (Text.ends_first_nil _) rest
    simp only [Tag.endingIn, closes, Option.map_some]
    cases Text.cut? ('\x7d' :: delimiters.closer.chars) (Text.dropBlank body) <;> rfl
  rw [same]
  exact meets_marked finds .unescaped (List.cons_ne_nil '\x7d' delimiters.closer.chars)
    (List.cons_ne_nil '\x7d' []) (by simp [Text.isBlank, Text.blankCodes])
    (fun behind => delimiters.closer.chars ++ behind) (fun _ => rfl) (Text.dropBlank body)

theorem kind_of_sigil_eq_none_iff {c : Char} (unequal : c ≠ '=') (unbraced : c ≠ '\x7b') :
    Tag.kindOfSigil c = none ↔ c ∉ sigils := by
  refine ⟨Tag.sigil_of_no_kind unequal unbraced, fun unmarked => ?_⟩
  cases sigil : Tag.kindOfSigil c with
  | none => rfl
  | some kind =>
      refine absurd ?_ unmarked
      simp only [Tag.kindOfSigil] at sigil
      split at sigil <;> simp_all [sigils]

/-- A tag is scanned from behind the blanks that follow its opener. -/
theorem meets_tag (source : List Char) (delimiters : Delimiters) (finds : search.FindsFirst)
    (begins : Text.dropBlank rest = rest) :
    Meets source (tag search delimiters) rest (Tag.read delimiters.closer.chars rest) := by
  cases rest with
  | nil =>
      obtain ⟨blanks, passes⟩ := leads_over_blanks source []
      have unmarked : ∀ c ∈ ([] : List Char).head?, c ∉ sigils := by simp
      have unmade : Tag.read delimiters.closer.chars [] = none := rfl
      have plain := meets_plain source delimiters finds .escaped []
      rw [Text.cut_nil delimiters.closer.nonempty] at plain
      rw [unmade]
      exact (leads_over_no_sigil unmarked).meets (passes.meets plain)
  | cons c body =>
      by_cases isSigil : c ∈ sigils
      · obtain ⟨blanks, passes⟩ := leads_over_blanks source body
        refine (leads_over_sigil isSigil).meets (passes.meets ?_)
        simp only [Tag.read, begins]
        by_cases change : c = '='
        · subst change
          exact meets_change finds body
        · rw [if_neg change]
          by_cases brace : c = '\x7b'
          · subst brace
            exact meets_braced finds body
          · rw [if_neg brace]
            cases sigil : Tag.kindOfSigil c with
            | none => exact absurd isSigil ((kind_of_sigil_eq_none_iff change brace).1 sigil)
            | some kind =>
                have same : TokenKind.ofSigil (some [c]) = kind := by
                  simp [TokenKind.ofSigil, sigil]
                rw [same, if_neg (by simpa using change), if_neg (by simpa using brace)]
                exact meets_plain source delimiters finds kind (Text.dropBlank body)
      · obtain ⟨blanks, passes⟩ := leads_over_blanks source (c :: body)
        rw [begins] at passes
        have unmarked : ∀ first ∈ (c :: body).head?, first ∉ sigils := by simpa using isSigil
        refine (leads_over_no_sigil unmarked).meets (passes.meets ?_)
        have unequal : c ≠ '=' := by
          rintro rfl
          simp [sigils] at isSigil
        have unbraced : c ≠ '\x7b' := by
          rintro rfl
          simp [sigils] at isSigil
        simp only [Tag.read, begins, if_neg unequal, if_neg unbraced,
          (kind_of_sigil_eq_none_iff unequal unbraced).2 isSigil, Tag.endingIn]
        exact meets_plain source delimiters finds .escaped (c :: body)

end Scan

/-! ### One turn -/

namespace Item

/-- The characters of a text as items, each cut out of the text at its byte positions. -/
def cutFrom (text : List Char) (offset : Nat) : Nat → List Char → Except Torn (List Item)
  | _, [] => return []
  | index, c :: ahead => do
      let piece ← Text.part index (index + c.utf8Size) text
      let items ← cutFrom text offset (index + c.utf8Size) ahead
      return piece.map (Item.char (offset + index)) ++ items

theorem cut_from_eq (before text : List Char) (offset : Nat) :
    cutFrom (before ++ text) offset (Text.width before) text =
      .ok (ofChars (offset + Text.width before) text) := by
  induction text generalizing before with
  | nil => rfl
  | cons c rest ih =>
      have cut := Text.part_append before [c] rest
      have further := ih (before ++ [c])
      rw [List.append_assoc, List.singleton_append] at further
      simp only [Text.width_append, Text.width, Nat.add_zero, List.singleton_append] at cut further
      simp only [cutFrom, cut, further, bind, Except.bind, pure, Except.pure, ofChars,
        List.map_singleton, List.singleton_append, Nat.add_assoc]

end Item

/-- What a scan keeps from turn to turn beside its cursor. -/
structure Scanner where
  delimiters : Delimiters
  opened : List OpenSection := []
  items : List Item := []
  deriving DecidableEq

inductive Turn
  | onward (scanner : Scanner)
  | ended (outcome : Except Located (List Item))

namespace Scanner

/-- Where nothing is left of the text no section may be open. -/
def concluded (scanner : Scanner) : Except Located (List Item) :=
  match scanner.opened with
  | [] => .ok scanner.items
  | innermost :: _ => .error ⟨.unclosedSection innermost.name, innermost.offset⟩

/-- What a tag that is closed makes of the scan. -/
def pass (scanner : Scanner) (kind : TokenKind) (value : List Char) (span : Span) :
    Except Torn Turn :=
  let token : Token := ⟨kind, String.ofList value, span⟩
  let items := scanner.items ++ [.tag token]
  match token.shiftSections scanner.opened with
  | .error located => .ok (.ended (.error located))
  | .ok opened =>
      if kind = .delimiters then
        (Splitter.delimiters value).map fun
          | .error fault => .ended (.error ⟨fault, span.first⟩)
          | .ok delimiters => .onward ⟨delimiters, opened, items⟩
      else .ok (.onward ⟨scanner.delimiters, opened, items⟩)

/-- Scans the text in front of the next opener, and the tag behind that. -/
def turn (search : Search) (scanner : Scanner) : Scan Turn := do
  if ← Cursor.atEnd then return .ended scanner.concluded
  else
    let start ← Cursor.place
    let text ← Cursor.goUpTo search scanner.delimiters.opening
    let chars ← Item.cutFrom text start 0 text
    let scanner := { scanner with items := scanner.items ++ chars }
    let first ← Cursor.place
    match ← Cursor.stepOver scanner.delimiters.opening with
    | none => return .ended scanner.concluded
    | some _ =>
        let (kind, value, closed) ← Scan.tag search scanner.delimiters
        let stop ← Cursor.place
        if closed then scanner.pass kind value ⟨first, stop⟩
        else return .ended (.error ⟨.unclosedTag scanner.delimiters.closer.text, stop⟩)

/-- What comes of what was scanned and the reading of the text behind it. -/
def concludedBehind (scanner : Scanner) (reading : Reading) : Except Located (List Item) :=
  match sectionsBehind scanner.opened reading.items, reading.fault with
  | .error located, _ => .error located
  | .ok _, some located => .error located
  | .ok opened, none =>
      { scanner with opened, items := scanner.items ++ reading.items }.concluded

variable {scanner : Scanner} {reading : Reading}

theorem concluded_behind_ended : scanner.concludedBehind ⟨[], none⟩ = scanner.concluded := by
  simp only [concludedBehind, sectionsBehind, List.append_nil]

theorem concluded_behind_stopped (fault : Fault) (offset : Nat) :
    scanner.concludedBehind (.stoppedBy fault offset) = .error ⟨fault, offset⟩ := rfl

theorem concluded_behind_chars (offset : Nat) (text : List Char) :
    scanner.concludedBehind (reading.behind (Item.ofChars offset text)) =
      { scanner with items := scanner.items ++ Item.ofChars offset text }.concludedBehind
        reading := by
  have unchanged : sectionsBehind scanner.opened (Item.ofChars offset text ++ reading.items) =
      sectionsBehind scanner.opened reading.items := by
    induction text generalizing offset with
    | nil => rfl
    | cons c rest ih => exact ih (offset + c.utf8Size)
  simp only [concludedBehind, Reading.behind, unchanged, List.append_assoc]

theorem concluded_behind_tag {token : Token} {opened : List OpenSection} (after : Delimiters)
    (shifted : token.shiftSections scanner.opened = .ok opened) :
    scanner.concludedBehind (reading.cons (.tag token)) =
      Scanner.concludedBehind ⟨after, opened, scanner.items ++ [.tag token]⟩ reading := by
  simp only [concludedBehind, Reading.cons, sectionsBehind, shifted, List.append_assoc,
    List.singleton_append, concluded]

theorem concluded_behind_broken {token : Token} {located : Located}
    (broken : token.shiftSections scanner.opened = .error located) :
    scanner.concludedBehind (reading.cons (.tag token)) = .error located := by
  simp only [concludedBehind, Reading.cons, sectionsBehind, broken]

theorem balanced_eq (delimiters : Delimiters) (reading : Reading) :
    reading.balanced = Scanner.concludedBehind { delimiters } reading := by
  simp only [Reading.balanced, concludedBehind, concluded, List.nil_append]
  cases sectionsBehind [] reading.items with
  | error located => rfl
  | ok opened => cases opened <;> cases reading.fault <;> rfl

end Scanner

theorem Tag.read_drop_blank (closer text : List Char) :
    Tag.read closer (Text.dropBlank text) = Tag.read closer text := by
  have again : Text.dropBlank (Text.dropBlank text) = Text.dropBlank text :=
    List.dropWhile_idempotent _ _
  simp only [Tag.read, again]

theorem Reading.of_text_unopened {delimiters : Delimiters} {text : List Char}
    (missing : Text.cut? delimiters.opener.chars text = none) (offset : Nat) :
    Reading.ofText delimiters offset text =
      Reading.behind (Item.ofChars offset text) ⟨[], none⟩ := by
  induction text generalizing offset with
  | nil => simp [Reading.ofText, Reading.behind, Item.ofChars]
  | cons c rest ih =>
      rw [Text.cut?] at missing
      cases apart : Text.after? delimiters.opener.chars (c :: rest) with
      | some suffix => simp [apart] at missing
      | none =>
          simp only [apart, Option.map_eq_none_iff] at missing
          rw [Reading.of_text_char apart, ih missing]
          rfl

theorem Reading.of_text_unclosed_at {delimiters : Delimiters} {source behind : List Char}
    (suffix : delimiters.opener.chars ++ behind <:+ source)
    (unmade : Tag.read delimiters.closer.chars behind = none) :
    Reading.ofText delimiters
        (Text.width source - Text.width (delimiters.opener.chars ++ behind))
        (delimiters.opener.chars ++ behind) =
      .stoppedBy (.unclosedTag delimiters.closer.text) (Text.width source) := by
  have inside := Text.width_le_of_suffix suffix
  have opened := Text.after_append_self delimiters.opener.chars behind
  obtain ⟨c, more, shape⟩ := List.exists_cons_of_ne_nil delimiters.opener.nonempty
  have whole : delimiters.opener.chars ++ behind = c :: (more ++ behind) := by rw [shape]; rfl
  rw [whole] at opened inside ⊢
  rw [Reading.of_text_unclosed opened unmade, Nat.sub_add_cancel inside]

/-- What a turn comes to, and what it leaves of the text: the outcome foretold by reading the text
that was left before it, or a scan further on with the same prospect. -/
inductive Turn.Follows (source rest : List Char) (scanner : Scanner) : Turn → List Char → Prop
  | onward {next : Scanner} {left : List Char} (suffix : left <:+ rest)
      (further : Text.width scanner.delimiters.opener.chars + Text.width left ≤ Text.width rest)
      (same : next.concludedBehind (Reading.ofText next.delimiters
          (Text.width source - Text.width left) left) =
        scanner.concludedBehind (Reading.ofText scanner.delimiters
          (Text.width source - Text.width rest) rest)) :
      Follows source rest scanner (.onward next) left
  | ended {outcome : Except Located (List Item)} {left : List Char}
      (same : outcome = scanner.concludedBehind (Reading.ofText scanner.delimiters
        (Text.width source - Text.width rest) rest)) :
      Follows source rest scanner (.ended outcome) left

namespace Scanner

variable {source rest : List Char} {scanner : Scanner} {search : Search}

theorem further_of_read {behind : List Char} {tag : Tag}
    (made : Tag.read scanner.delimiters.closer.chars behind = some tag) :
    tag.rest <:+ scanner.delimiters.opener.chars ++ behind ∧
      Text.width scanner.delimiters.opener.chars + Text.width tag.rest ≤
        Text.width (scanner.delimiters.opener.chars ++ behind) := by
  obtain ⟨inner, closed⟩ := Tag.read_suffix made
  constructor
  · refine ⟨scanner.delimiters.opener.chars ++ (inner ++ scanner.delimiters.closer.chars), ?_⟩
    simp only [← closed, List.append_assoc]
  · simp only [← closed, Text.width_append]
    omega

/-- A tag that is closed is passed as it is read. -/
theorem pass_follows (scanner : Scanner) {behind : List Char} {tag : Tag}
    (suffix : scanner.delimiters.opener.chars ++ behind <:+ source)
    (made : Tag.read scanner.delimiters.closer.chars behind = some tag) :
    ∃ turn, scanner.pass tag.kind tag.value
        ⟨Text.width source - Text.width (scanner.delimiters.opener.chars ++ behind),
          Text.width source - Text.width tag.rest⟩ = .ok turn ∧
      Turn.Follows source (scanner.delimiters.opener.chars ++ behind) scanner turn tag.rest := by
  obtain ⟨leftSuffix, further⟩ := further_of_read made
  have trimmed := (Tag.stands_of_read made).trimmed
  generalize whole : scanner.delimiters.opener.chars ++ behind = rest at *
  have inside := Text.width_le_of_suffix suffix
  have opened : Text.after? scanner.delimiters.opener.chars rest = some behind :=
    Text.after_eq_some_iff.2 whole.symm
  obtain ⟨c, text, rfl⟩ : ∃ c text, rest = c :: text := by
    obtain ⟨c, more, shape⟩ := List.exists_cons_of_ne_nil scanner.delimiters.opener.nonempty
    exact ⟨c, more ++ behind, by rw [← whole, shape]; rfl⟩
  have stop : Text.width source - Text.width (c :: text) +
      (Text.width (c :: text) - Text.width tag.rest) =
        Text.width source - Text.width tag.rest := by
    omega
  generalize place : Text.width source - Text.width (c :: text) = first at *
  let token : Token :=
    ⟨tag.kind, String.ofList tag.value, ⟨first, Text.width source - Text.width tag.rest⟩⟩
  have reads {after : Delimiters} (fit : tag.delimitersAfter scanner.delimiters = .ok after) :
      Reading.ofText scanner.delimiters first (c :: text) =
        (Reading.ofText after (Text.width source - Text.width tag.rest) tag.rest).cons
          (.tag token) := by
    rw [Reading.of_text_tag opened made fit, stop]
  by_cases change : tag.kind = .delimiters
  · have shifted : token.shiftSections scanner.opened = .ok scanner.opened := by
      simp only [Token.shiftSections, token, change]
    have named : tag.delimitersAfter scanner.delimiters = Delimiters.ofWords tag.value :=
      if_pos change
    simp only [pass, token, shifted, if_pos change, Splitter.delimiters_eq trimmed, Except.map]
    cases fit : Delimiters.ofWords tag.value with
    | error fault =>
        refine ⟨_, rfl, .ended ?_⟩
        rw [place, Reading.of_text_unfit opened made (named.trans fit), concluded_behind_stopped]
    | ok after =>
        refine ⟨_, rfl, .onward leftSuffix further ?_⟩
        rw [place, reads (named.trans fit), concluded_behind_tag after shifted]
  · have fit : tag.delimitersAfter scanner.delimiters = .ok scanner.delimiters := if_neg change
    cases shifted : token.shiftSections scanner.opened with
    | error located =>
        refine ⟨.ended (.error located), ?_, .ended ?_⟩
        · simp only [pass, token, shifted]
        · rw [place, reads fit, concluded_behind_broken shifted]
    | ok opened =>
        refine ⟨.onward ⟨scanner.delimiters, opened, scanner.items ++ [.tag token]⟩, ?_,
          .onward leftSuffix further ?_⟩
        · simp only [pass, token, shifted, if_neg change]
        · rw [place, reads fit, concluded_behind_tag scanner.delimiters shifted]

/-- What comes of a text does not change when the characters in front of an opener are passed. -/
theorem concluded_behind_front (scanner : Scanner) {front behind : List Char}
    (suffix : rest <:+ source)
    (whole : rest = front ++ (scanner.delimiters.opener.chars ++ behind))
    (clear : Text.EndsFirst scanner.delimiters.opener.chars front) :
    scanner.concludedBehind (Reading.ofText scanner.delimiters
        (Text.width source - Text.width rest) rest) =
      Scanner.concludedBehind
        { scanner with
          items := scanner.items ++
            Item.ofChars (Text.width source - Text.width rest) front }
        (Reading.ofText scanner.delimiters
          (Text.width source - Text.width (scanner.delimiters.opener.chars ++ behind))
          (scanner.delimiters.opener.chars ++ behind)) := by
  have inside := Text.width_le_of_suffix suffix
  have widths := congrArg Text.width whole
  rw [Text.width_append] at widths
  have place : Text.width source - Text.width rest + Text.width front =
      Text.width source - Text.width (scanner.delimiters.opener.chars ++ behind) := by
    omega
  conv_lhs => rw [whole, Piece.read_chars clear (.inr ⟨behind, rfl⟩), ← whole, place]
  exact concluded_behind_chars _ _

/-- Without an opener ahead the rest of the text is passed, and the scan ends. -/
theorem turn_unopened (scanner : Scanner) (finds : search.FindsFirst) (filled : rest ≠ [])
    (missing : Text.cut? scanner.delimiters.opener.chars rest = none) :
    ∃ turn left, Scan.Leads source (scanner.turn search) rest turn left ∧
      Turn.Follows source rest scanner turn left := by
  have goesOn : Scan.Leads source Cursor.atEnd rest false rest := by
    simpa [filled] using Scan.leads_at_end source rest
  have nonempty := scanner.delimiters.opener.nonempty
  have toEnd : Scan.Leads source (Cursor.goUpTo search scanner.delimiters.opening) rest rest [] :=
    Scan.leads_to_end finds nonempty missing
  have cut := Item.cut_from_eq [] rest (Text.width source - Text.width rest)
  refine ⟨_, [], goesOn.bind (Scan.leads_place.bind (toEnd.bind
    ((Scan.Leads.lift cut).bind (Scan.leads_place.bind
      ((Scan.leads_over_nothing nonempty).bind (.pure _ _ _)))))), .ended ?_⟩
  rw [Reading.of_text_unopened missing, concluded_behind_chars, concluded_behind_ended]
  rfl

/-- The text in front of an opener is passed, then the tag, or what is left if it is not closed. -/
theorem turn_opened (scanner : Scanner) (finds : search.FindsFirst) (suffix : rest <:+ source)
    (filled : rest ≠ []) {front behind : List Char}
    (found : Text.cut? scanner.delimiters.opener.chars rest = some (front, behind)) :
    ∃ turn left, Scan.Leads source (scanner.turn search) rest turn left ∧
      Turn.Follows source rest scanner turn left := by
  have goesOn : Scan.Leads source Cursor.atEnd rest false rest := by
    simpa [filled] using Scan.leads_at_end source rest
  have nonempty := scanner.delimiters.opener.nonempty
  have whole := Text.cut_append found
  have clear := Text.ends_first_of_cut found
  have inner := Text.cut_suffix found
  let chars := Item.ofChars (Text.width source - Text.width rest) front
  have cut := Item.cut_from_eq [] front (Text.width source - Text.width rest)
  have same := concluded_behind_front scanner suffix whole clear
  have upTo : Scan.Leads source (Cursor.goUpTo search scanner.delimiters.opening) rest front
      (scanner.delimiters.opener.chars ++ behind) :=
    Scan.leads_up_to finds nonempty found
  obtain ⟨skipped, opens⟩ := Scan.leads_over_blanks_behind source
    scanner.delimiters.opener.chars behind
  have again : Text.dropBlank (Text.dropBlank behind) = Text.dropBlank behind :=
    List.dropWhile_idempotent _ _
  have meets := Scan.meets_tag source scanner.delimiters finds again
  rw [Tag.read_drop_blank] at meets
  cases made : Tag.read scanner.delimiters.closer.chars behind with
  | none =>
      rw [made] at meets
      obtain ⟨kind, value, unclosed⟩ := meets
      refine ⟨_, [], goesOn.bind (Scan.leads_place.bind (upTo.bind
        ((Scan.Leads.lift cut).bind (Scan.leads_place.bind (opens.bind (unclosed.bind
          (Scan.leads_place.bind (.pure _ _ _)))))))), .ended ?_⟩
      rw [same, Reading.of_text_unclosed_at (inner.trans suffix) made, concluded_behind_stopped]
      rfl
  | some tag =>
      rw [made] at meets
      obtain ⟨turn, passes, follows⟩ := pass_follows
        { scanner with items := scanner.items ++ chars } (inner.trans suffix) made
      refine ⟨turn, tag.rest, goesOn.bind (Scan.leads_place.bind (upTo.bind
        ((Scan.Leads.lift cut).bind (Scan.leads_place.bind (opens.bind (meets.bind
          (Scan.leads_place.bind (.lift passes)))))))), ?_⟩
      cases follows with
      | onward leftSuffix further sameBehind =>
          exact .onward (leftSuffix.trans inner)
            (further.trans (Text.width_le_of_suffix inner)) (sameBehind.trans same.symm)
      | ended sameBehind => exact .ended (sameBehind.trans same.symm)

theorem turn_follows (scanner : Scanner) (finds : search.FindsFirst) (suffix : rest <:+ source) :
    ∃ turn left, Scan.Leads source (scanner.turn search) rest turn left ∧
      Turn.Follows source rest scanner turn left := by
  by_cases ended : rest = []
  · subst ended
    refine ⟨.ended scanner.concluded, [], ?_, .ended ?_⟩
    · exact (Scan.leads_at_end source []).bind (.pure _ _ _)
    · rw [Reading.ofText, concluded_behind_ended]
  cases found : Text.cut? scanner.delimiters.opener.chars rest with
  | none => exact turn_unopened scanner finds ended found
  | some pair => exact turn_opened scanner finds suffix ended found

end Scanner

/-! ### Turn after turn -/

/-- A scan between two of its turns. -/
structure Stage where
  scanner : Scanner
  cursor : Cursor

namespace Stage

def start (delimiters : Delimiters) (source : List Char) : Stage := ⟨{ delimiters }, { source }⟩

/-- The turn taken at a stage, and where it leaves the cursor. -/
def turn (search : Search) (stage : Stage) : Except Torn (Turn × Cursor) :=
  (stage.scanner.turn search).run stage.cursor

def Onward (search : Search) (stage next : Stage) : Prop :=
  stage.turn search = .ok (.onward next.scanner, next.cursor)

/-- The stages of a scan. -/
def Reaches (search : Search) : Stage → Stage → Prop := Relation.ReflTransGen (Onward search)

/-- What comes of the scan, as reading the text that is left foretells it. -/
def prospect (source rest : List Char) (stage : Stage) : Except Located (List Item) :=
  stage.scanner.concludedBehind (Reading.ofText stage.scanner.delimiters
    (Text.width source - Text.width rest) rest)

variable {search : Search} {source rest : List Char} {stage next : Stage}

/-- A turn never fails. It ends the scan as was foretold, or goes on to a stage further on of which
the same is foretold. -/
theorem turn_cases (finds : search.FindsFirst) (before : stage.cursor.Before source rest) :
    ∃ turn cursor left, stage.turn search = .ok (turn, cursor) ∧ cursor.Before source left ∧
      Turn.Follows source rest stage.scanner turn left := by
  obtain ⟨passed, whole, _⟩ := before.stands
  obtain ⟨turn, left, leads, follows⟩ :=
    Scanner.turn_follows stage.scanner finds ⟨passed, whole.symm⟩
  obtain ⟨cursor, ran, behind⟩ := leads stage.cursor before
  exact ⟨turn, cursor, left, ran, behind, follows⟩

theorem onward_step (finds : search.FindsFirst) (before : stage.cursor.Before source rest)
    (onward : Onward search stage next) :
    ∃ left, next.cursor.Before source left ∧
      Text.width stage.scanner.delimiters.opener.chars + Text.width left ≤ Text.width rest ∧
      next.prospect source left = stage.prospect source rest := by
  obtain ⟨turn, cursor, left, ran, behind, follows⟩ := turn_cases finds before
  rw [Onward, ran] at onward
  obtain ⟨rfl, rfl⟩ := Prod.mk.inj (Except.ok.inj onward)
  cases follows with
  | onward _ further same => exact ⟨left, behind, further, same⟩

/-- By induction on the stages. -/
theorem reaches_step (finds : search.FindsFirst) (before : stage.cursor.Before source rest)
    (reaches : Reaches search stage next) :
    ∃ left, next.cursor.Before source left ∧
      next.prospect source left = stage.prospect source rest := by
  induction reaches with
  | refl => exact ⟨rest, before, rfl⟩
  | tail _ onward ih =>
      obtain ⟨between, reached, same⟩ := ih
      obtain ⟨left, behind, _, furtherSame⟩ := onward_step finds reached onward
      exact ⟨left, behind, furtherSame.trans same⟩

/-- Every scan ends, and as was foretold: the text that is left grows shorter by an opener in each
turn that goes on. -/
theorem reaches_end (stage : Stage) (finds : search.FindsFirst)
    (before : stage.cursor.Before source rest) :
    ∃ last outcome cursor, Reaches search stage last ∧
      last.turn search = .ok (.ended outcome, cursor) ∧ outcome = stage.prospect source rest := by
  induction wide : Text.width rest using Nat.strong_induction_on generalizing stage rest with
  | _ width ih =>
      obtain ⟨turn, cursor, left, ran, behind, follows⟩ := turn_cases finds before
      cases follows with
      | ended same => exact ⟨stage, _, cursor, .refl, ran, same⟩
      | @onward scanner _ _ further same =>
          have shorter : Text.width left < width := by
            have openerWide := Text.width_pos stage.scanner.delimiters.opener.nonempty
            omega
          obtain ⟨last, outcome, final, reaches, ends, foretold⟩ :=
            @ih _ shorter left ⟨scanner, cursor⟩ behind rfl
          have onward : Onward search stage ⟨scanner, cursor⟩ := ran
          exact ⟨last, outcome, final, .head onward reaches, ends, foretold.trans same⟩

theorem prospect_start (delimiters : Delimiters) (source : List Char) :
    (start delimiters source).prospect source source =
      (Reading.ofText delimiters 0 source).balanced := by
  rw [Scanner.balanced_eq delimiters, prospect, Nat.sub_self]
  rfl

end Stage

/-- Whatever is looked for under any delimiters is found between characters, and what is found ahead
is there. No turn of a scan cuts a text within a character. The cursor is never beyond the end of
the source or within a character of it, and a turn that goes on moves it by an opener or more. So
the scan ends, and has the tokens or the fault of the template. -/
theorem scan_advances_between_characters (search : Search) (finds : search.FindsFirst)
    (initial : Delimiters) (source : String) :
    (∀ delimiters : Delimiters, ∀ sought ∈ delimiters.sought, ∀ text,
        sought.Sound search text) ∧
      (∀ stage, Stage.Reaches search (.start initial source.toList) stage →
        ∃ turn cursor, stage.turn search = .ok (turn, cursor) ∧
          (∀ position ∈ cursor.trail,
            position ≤ source.utf8ByteSize ∧ String.Pos.Raw.IsValid source ⟨position⟩) ∧
          ∀ scanner, turn = .onward scanner →
            stage.cursor.position + Text.width stage.scanner.delimiters.opener.chars ≤
              cursor.position) ∧
      ∃ last outcome cursor, Stage.Reaches search (.start initial source.toList) last ∧
        last.turn search = .ok (.ended outcome, cursor) ∧
        Token.ofText initial source.toList =
          outcome.map fun items => Token.ofItems (settleLines {} items) := by
  have starts : (Stage.start initial source.toList).cursor.Before source.toList source.toList :=
    Cursor.before_start _
  refine ⟨fun delimiters sought among text =>
    Sought.sound finds (delimiters.sought_fits sought among) text, ?_, ?_⟩
  · intro stage reaches
    obtain ⟨rest, before, _⟩ := Stage.reaches_step finds starts reaches
    obtain ⟨turn, cursor, left, ran, behind, follows⟩ := Stage.turn_cases finds before
    refine ⟨turn, cursor, ran, ?_, ?_⟩
    · intro position among
      have between := behind.steady position among
      refine ⟨?_, Text.between_iff_is_valid.1 between⟩
      rw [← Text.width_eq_utf8_size]
      exact between.le_width
    · rintro scanner rfl
      cases follows with
      | onward suffix further _ =>
          have position := before.position_eq
          have positionBehind := behind.position_eq
          omega
  · obtain ⟨last, outcome, cursor, reaches, ends, foretold⟩ := Stage.reaches_end _ finds starts
    refine ⟨last, outcome, cursor, reaches, ends, ?_⟩
    rw [foretold, Stage.prospect_start]
    rfl

/-- A no-break space, an em space and guillemets, each of more than one byte. -/
theorem scan_of_wide_characters_ends :
    let source := "é\x7b\x7b\u00a0= « »\u2003=\x7d\x7d«\u2003x »"
    Search.naive.FindsFirst ∧
      ∃ last outcome cursor, Stage.Reaches .naive (.start .braces source.toList) last ∧
        last.turn .naive = .ok (.ended outcome, cursor) ∧
        (outcome.map fun items => Token.ofItems (settleLines {} items)) =
          .ok [⟨.text, "é", ⟨0, 2⟩⟩, ⟨.delimiters, "« »", ⟨2, 19⟩⟩, ⟨.escaped, "x", ⟨19, 28⟩⟩] := by
  intro source
  have scans := scan_advances_between_characters .naive Search.naive_finds_first .braces source
  obtain ⟨last, outcome, cursor, reaches, ends, made⟩ := scans.2.2
  refine ⟨Search.naive_finds_first, last, outcome, cursor, reaches, ends, ?_⟩
  rw [← made]
  cbv

end Mustache

import Mustache.Proofs.Reading
import Mustache.Text.Slice

/-!
Standalone lines in one buffer of tokens. Every character of the text is a token of its own at
first, and of the line being read the positions of the blank ones are noted. Where a line gives up
its blanks, the buffer is split at the first of these positions, and the tokens behind are gone
through with the positions counted from there. At the end tokens of text that follow each other are
merged; the text of a merged token is a part of the source until a gap is passed, and a copy from
then on. This comes to the items that the lines keep, and to the tokens of these.
-/

namespace Mustache

namespace Item

/-- The token of a single item. -/
def toToken : Item → Token
  | .char offset c => ⟨.text, String.singleton c, ⟨offset, offset + c.utf8Size⟩⟩
  | .tag token => token

def isBlank : Item → Bool
  | .char _ c => Text.isBlank c
  | .tag _ => false

/-- The positions of the blanks among the items, counted from that of the first item. -/
def blanksFrom : Nat → List Item → List Nat
  | _, [] => []
  | position, item :: rest =>
      if item.isBlank then position :: blanksFrom (position + 1) rest
      else blanksFrom (position + 1) rest

theorem blanks_from_append (position : Nat) (items others : List Item) :
    blanksFrom position (items ++ others) =
      blanksFrom position items ++ blanksFrom (position + items.length) others := by
  induction items generalizing position with
  | nil => rfl
  | cons item rest ih =>
      have further : position + 1 + rest.length = position + (item :: rest).length := by
        rw [List.length_cons]
        omega
      simp only [List.cons_append, blanksFrom, ih, further]
      split <;> rfl

theorem le_of_mem_blanks {first position : Nat} {items : List Item}
    (among : position ∈ blanksFrom first items) : first ≤ position := by
  induction items generalizing first with
  | nil => cases among
  | cons item rest ih =>
      simp only [blanksFrom] at among
      split at among
      · rcases List.mem_cons.1 among with rfl | behind
        · exact le_rfl
        · exact (Nat.le_succ first).trans (ih behind)
      · exact (Nat.le_succ first).trans (ih among)

/-- The first blank, with what stands before it. -/
theorem exists_first_blank {start first : Nat} {items : List Item} {others : List Nat}
    (blanks : blanksFrom start items = first :: others) :
    ∃ solid rest, items = solid ++ rest ∧ (∀ item ∈ solid, item.isBlank = false) ∧
      start + solid.length = first ∧ blanksFrom first rest = first :: others := by
  induction items generalizing start with
  | nil => cases blanks
  | cons item rest ih =>
      cases blank : item.isBlank with
      | true =>
          have whole := blanks
          simp only [blanksFrom, blank, if_true, List.cons.injEq] at blanks
          obtain ⟨rfl, _⟩ := blanks
          exact ⟨[], item :: rest, rfl, by simp, rfl, whole⟩
      | false =>
          rw [blanksFrom, blank, if_neg Bool.false_ne_true] at blanks
          obtain ⟨solid, rest, rfl, clear, reached, behind⟩ := ih blanks
          refine ⟨item :: solid, rest, rfl, List.forall_mem_cons.2 ⟨blank, clear⟩, ?_, behind⟩
          rw [List.length_cons]
          omega

end Item

/-- The tokens so far, the positions of those on the open line that are blank, and what else was
seen on it. -/
structure LineBuffer where
  tokens : List Token := []
  blanks : List Nat := []
  tagged : Bool := false
  inked : Bool := false
  deriving DecidableEq, Repr

namespace LineBuffer

/-- Leaves out the tokens at the positions, which ascend. The first token has the position told. -/
def leaveOut : List Nat → Nat → List Token → List Token
  | _, _, [] => []
  | [], _, tokens => tokens
  | next :: others, position, token :: rest =>
      if next = position then leaveOut others (position + 1) rest
      else token :: leaveOut (next :: others) (position + 1) rest

/-- The tokens without the blanks that were noted. -/
def withoutBlanks (buffer : LineBuffer) : List Token :=
  match buffer.blanks with
  | [] => buffer.tokens
  | first :: _ =>
      let tail := buffer.tokens.drop first
      buffer.tokens.take first ++ leaveOut (buffer.blanks.map (· - first)) 0 tail

/-- Ends the line, without its blanks if it has tags and else nothing but blanks. -/
def strip (buffer : LineBuffer) : LineBuffer :=
  { tokens := if buffer.tagged && !buffer.inked then buffer.withoutBlanks else buffer.tokens }

def append (buffer : LineBuffer) : Item → LineBuffer
  | .char offset c =>
      let noted :=
        if Text.isBlank c then { buffer with blanks := buffer.blanks ++ [buffer.tokens.length] }
        else { buffer with inked := true }
      { noted with tokens := noted.tokens ++ [Item.toToken (.char offset c)] }
  | .tag token =>
      { buffer with
        tokens := buffer.tokens ++ [token]
        tagged := true
        inked := buffer.inked || token.kind.interpolates }

def push (buffer : LineBuffer) (item : Item) : LineBuffer :=
  if item.isLineFeed then (buffer.append item).strip else buffer.append item

/-- The buffer holds the tokens of the items settled and of those on the open line. -/
structure Holds (buffer : LineBuffer) (settled : List Item) (line : OpenLine) : Prop where
  tokens : buffer.tokens = (settled ++ line.items.reverse).map Item.toToken
  blanks : buffer.blanks = Item.blanksFrom settled.length line.items.reverse
  tagged : buffer.tagged = line.tagged
  inked : buffer.inked = line.inked
  plain : line.inked = false → ∀ item ∈ line.items, item.isInk = false

theorem holds_append {buffer : LineBuffer} {settled : List Item} {line : OpenLine}
    (holds : buffer.Holds settled line) (item : Item) :
    (buffer.append item).Holds settled (line.add item) := by
  obtain ⟨tokens, blanks, tagged, inked, plain⟩ := holds
  have length : buffer.tokens.length = settled.length + line.items.reverse.length := by
    rw [tokens, List.length_map, List.length_append]
  have plainBehind : (line.add item).inked = false →
      ∀ other ∈ (line.add item).items, other.isInk = false := by
    intro clear
    obtain ⟨before, here⟩ := Bool.or_eq_false_iff.1 clear
    exact List.forall_mem_cons.2 ⟨here, plain before⟩
  have tokensBehind : buffer.tokens ++ [item.toToken] =
      (settled ++ (line.add item).items.reverse).map Item.toToken := by
    simp only [tokens, OpenLine.add, List.reverse_cons, List.map_append, List.map_singleton,
      List.append_assoc]
  have blanksBehind : Item.blanksFrom settled.length (line.add item).items.reverse =
      buffer.blanks ++ if item.isBlank then [buffer.tokens.length] else [] := by
    rw [OpenLine.add, List.reverse_cons, Item.blanks_from_append, ← blanks, ← length]
    simp only [Item.blanksFrom]
  cases item with
  | tag token =>
      refine ⟨tokensBehind, ?_, ?_, ?_, plainBehind⟩
      · rw [blanksBehind]
        simp [append, Item.isBlank]
      · simp [append, OpenLine.add, Item.isTag]
      · simp [append, OpenLine.add, Item.isInk, inked]
  | char offset c =>
      cases blank : Text.isBlank c with
      | true =>
          refine ⟨?_, ?_, ?_, ?_, plainBehind⟩
          · rw [← tokensBehind]
            simp [append, blank]
          · rw [blanksBehind]
            simp [append, blank, Item.isBlank]
          · simp [append, blank, OpenLine.add, Item.isTag, tagged]
          · simp [append, blank, OpenLine.add, Item.isInk, inked]
      | false =>
          refine ⟨?_, ?_, ?_, ?_, plainBehind⟩
          · rw [← tokensBehind]
            simp [append, blank]
          · rw [blanksBehind]
            simp [append, blank, Item.isBlank]
          · simp [append, blank, OpenLine.add, Item.isTag, tagged]
          · simp [append, blank, OpenLine.add, Item.isInk]

theorem leave_out_none (position : Nat) (tokens : List Token) :
    leaveOut [] position tokens = tokens := by
  cases tokens <;> rfl

theorem leave_out_shift {distance : Nat} {positions : List Nat}
    (beyond : ∀ position ∈ positions, distance ≤ position) (start : Nat) (tokens : List Token) :
    leaveOut (positions.map (· - distance)) start tokens =
      leaveOut positions (start + distance) tokens := by
  induction tokens generalizing positions start with
  | nil => cases positions <;> rfl
  | cons token rest ih =>
      cases positions with
      | nil => rfl
      | cons next others =>
          obtain ⟨here, behind⟩ := List.forall_mem_cons.1 beyond
          have same : next - distance = start ↔ next = start + distance := by omega
          have inside := ih beyond (start + 1)
          rw [List.map_cons, Nat.add_right_comm] at inside
          have outside := ih behind (start + 1)
          rw [Nat.add_right_comm] at outside
          simp only [List.map_cons, leaveOut, same, inside, outside]

theorem leave_out_blanks (start : Nat) (items : List Item) :
    leaveOut (Item.blanksFrom start items) start (items.map Item.toToken) =
      (items.filter fun item => !item.isBlank).map Item.toToken := by
  induction items generalizing start with
  | nil => rfl
  | cons item rest ih =>
      cases blank : item.isBlank with
      | true =>
          simp only [Item.blanksFrom, blank, if_true, List.map_cons, leaveOut, ih]
          simp [blank]
      | false =>
          have behind := ih (start + 1)
          simp only [Item.blanksFrom, blank, if_neg Bool.false_ne_true, List.map_cons]
          cases positions : Item.blanksFrom (start + 1) rest with
          | nil =>
              rw [positions, leave_out_none] at behind
              simp [leave_out_none, blank, ← behind]
          | cons next others =>
              have beyond : start + 1 ≤ next :=
                Item.le_of_mem_blanks (by rw [positions]; exact List.mem_cons_self)
              have apart : next ≠ start := by omega
              rw [positions] at behind
              simp [leaveOut, apart, blank, behind]

/-- Taking the tokens apart at the first blank, and counting from there, comes to the same. -/
theorem without_blanks_eq {buffer : LineBuffer} {settled items : List Item}
    (tokens : buffer.tokens = (settled ++ items).map Item.toToken)
    (blanks : buffer.blanks = Item.blanksFrom settled.length items) :
    buffer.withoutBlanks =
      (settled ++ items.filter fun item => !item.isBlank).map Item.toToken := by
  rw [withoutBlanks]
  cases positions : buffer.blanks with
  | nil =>
      have kept := leave_out_blanks settled.length items
      rw [← blanks, positions, leave_out_none] at kept
      rw [tokens, List.map_append, List.map_append, kept]
  | cons first others =>
      rw [positions] at blanks
      obtain ⟨solid, rest, rfl, clear, reached, behind⟩ := Item.exists_first_blank blanks.symm
      have keptSolid : solid.filter (fun item => !item.isBlank) = solid := by
        simpa using clear
      have front : ((settled ++ solid).map Item.toToken).length = first := by
        rw [List.length_map, List.length_append, reached]
      have beyond : ∀ position ∈ first :: others, first ≤ position := by
        rw [← behind]
        exact fun position among => Item.le_of_mem_blanks among
      have kept := leave_out_blanks first rest
      rw [behind] at kept
      rw [tokens, ← List.append_assoc, List.map_append]
      simp only [List.take_left' front, List.drop_left' front, leave_out_shift beyond, Nat.zero_add,
        kept]
      simp only [List.filter_append, keptSolid, List.map_append, List.append_assoc]

/-- An item without ink is a tag or a blank. -/
theorem is_tag_eq_not_blank {item : Item} (plain : item.isInk = false) :
    item.isTag = !item.isBlank := by
  cases item with
  | tag => rfl
  | char offset c =>
      have blank : Text.isBlank c = true := by simpa [Item.isInk] using plain
      simp [Item.isTag, Item.isBlank, blank]

theorem holds_strip {buffer : LineBuffer} {settled : List Item} {line : OpenLine}
    (holds : buffer.Holds settled line) : buffer.strip.Holds (settled ++ line.finish) {} := by
  obtain ⟨tokens, blanks, tagged, inked, plain⟩ := holds
  refine ⟨?_, rfl, rfl, rfl, fun _ item among => by cases among⟩
  rw [strip, tagged, inked, OpenLine.finish]
  simp only [List.reverse_nil, List.append_nil]
  split
  next gives =>
    have clear : line.inked = false := by
      simpa using (Bool.and_eq_true_iff.1 gives).2
    have tags : line.items.reverse.filter (fun item => !item.isBlank) =
        (line.items.filter Item.isTag).reverse := by
      rw [← List.filter_reverse]
      refine (List.filter_congr fun item among => ?_).symm
      exact is_tag_eq_not_blank (plain clear item (List.mem_reverse.1 among))
    rw [without_blanks_eq tokens blanks, tags]
  next => exact tokens

theorem tokens_of_push {buffer : LineBuffer} {settled : List Item} {line : OpenLine}
    (holds : buffer.Holds settled line) (items : List Item) :
    (items.foldl push buffer).tokens = (settled ++ settleLines line items).map Item.toToken := by
  induction items generalizing buffer settled line with
  | nil => exact holds.tokens
  | cons item rest ih =>
      have appended := holds_append holds item
      rw [List.foldl_cons, push, settleLines]
      split
      · rw [ih (holds_strip appended), List.append_assoc]
      · exact ih appended

/-- Behind the last item the buffer has the tokens of the items that lines keep. -/
theorem tokens_eq_settled (items : List Item) :
    (items.foldl push {}).tokens = (settleLines {} items).map Item.toToken := by
  have holds : Holds {} [] {} := ⟨rfl, rfl, rfl, rfl, fun _ => by simp⟩
  exact tokens_of_push holds items

end LineBuffer

/-! ### Tokens of text that follow each other -/

namespace Item

/-- The item is where it is told to be in the source, if it is a character. -/
def Stands (source : List Char) : Item → Prop
  | .char offset c => ∃ before behind, source = before ++ c :: behind ∧ Text.width before = offset
  | .tag token => token.kind ≠ .text

theorem Covers.stands {passed text : List Char} {items : List Item}
    (covers : Covers (Text.width passed) text items) :
    ∀ item ∈ items, item.Stands (passed ++ text) := by
  generalize place : Text.width passed = offset at covers
  induction covers generalizing passed with
  | nil => simp
  | @char offset c rest items behind ih =>
      have widths : Text.width (passed ++ [c]) = offset + c.utf8Size := by
        rw [Text.width_append, place, Text.width, Text.width, Nat.add_zero]
      have inside := ih widths
      rw [List.append_assoc, List.singleton_append] at inside
      exact List.forall_mem_cons.2 ⟨⟨passed, rest, rfl, place⟩, inside⟩
  | @tag offset body rest token items _ kind _ behind ih =>
      have widths : Text.width (passed ++ body) = offset + Text.width body := by
        rw [Text.width_append, place]
      have inside := ih widths
      rw [List.append_assoc] at inside
      exact List.forall_mem_cons.2 ⟨kind, inside⟩

end Item

theorem mem_of_settled {item : Item} {line : OpenLine} {items : List Item}
    (among : item ∈ settleLines line items) : item ∈ line.items ∨ item ∈ items := by
  have finished {line : OpenLine} (among : item ∈ line.finish) : item ∈ line.items := by
    rw [OpenLine.finish] at among
    split at among
    · exact List.mem_of_mem_filter (List.mem_reverse.1 among)
    · exact List.mem_reverse.1 among
  induction items generalizing line with
  | nil => exact .inl (List.mem_reverse.1 among)
  | cons first rest ih =>
      have added {open_ : OpenLine} (inside : item ∈ open_.items ∨ item ∈ rest)
          (same : open_.items = first :: line.items) :
          item ∈ line.items ∨ item ∈ first :: rest := by
        rw [same, List.mem_cons] at inside
        rw [List.mem_cons]
        tauto
      rw [settleLines] at among
      split at among
      · rcases List.mem_append.1 among with here | later
        · exact added (.inl (finished here)) rfl
        · rcases ih later with nothing | behind
          · cases nothing
          · exact .inr (List.mem_cons_of_mem first behind)
      · exact added (ih among) rfl

/-- A token as tokens of text are merged, and whether its text is a part of the source. -/
structure Merged where
  token : Token
  borrowed : Bool
  deriving DecidableEq, Repr

namespace Merged

/-- Adds a token to those merged so far, the last first. -/
def add (source : List Char) (merged : List Merged) (token : Token) :
    Except Torn (List Merged) :=
  match merged with
  | [] => return [⟨token, true⟩]
  | last :: earlier =>
      if token.kind = .text ∧ last.token.kind = .text then
        let span : Span := ⟨last.token.span.first, token.span.stop⟩
        if last.token.span.stop = token.span.first ∧ last.borrowed then do
          let text ← Text.part span.first span.stop source
          return ⟨⟨.text, String.ofList text, span⟩, true⟩ :: earlier
        else return ⟨⟨.text, last.token.value ++ token.value, span⟩, false⟩ :: earlier
      else return ⟨token, true⟩ :: last :: earlier

/-- The text of the token stands in the source where its span tells. -/
def Stands (source : List Char) (token : Token) : Prop :=
  ∃ before behind, source = before ++ (token.value.toList ++ behind) ∧
    Text.width before = token.span.first ∧
    token.span.stop = token.span.first + Text.width token.value.toList

/-- The token before the others, merged with the first of them if both are text. -/
def join (last : Token) : List Token → List Token
  | [] => [last]
  | next :: rest =>
      if next.kind = .text ∧ last.kind = .text then
        ⟨.text, last.value ++ next.value, ⟨last.span.first, next.span.stop⟩⟩ :: rest
      else last :: next :: rest

theorem stands_of_char {source : List Char} {offset : Nat} {c : Char}
    (stands : (Item.char offset c).Stands source) :
    Stands source (Item.toToken (.char offset c)) := by
  obtain ⟨before, behind, same, wide⟩ := stands
  exact ⟨before, behind, by simpa [Item.toToken] using same, wide,
    by simp [Item.toToken, Text.width]⟩

/-- Texts of which one begins where the other ends are one part of the source. -/
theorem Stands.merge {source : List Char} {last token : Token} (stands : Stands source last)
    (standsToo : Stands source token) (touch : last.span.stop = token.span.first) :
    Text.part last.span.first token.span.stop source =
        .ok (last.value.toList ++ token.value.toList) ∧
      Stands source ⟨.text, last.value ++ token.value, ⟨last.span.first, token.span.stop⟩⟩ := by
  obtain ⟨before, behind, whole, first, stop⟩ := stands
  obtain ⟨front, rest, wholeToo, firstToo, stopToo⟩ := standsToo
  have widths : Text.width (before ++ last.value.toList) = Text.width front := by
    rw [Text.width_append]
    omega
  have parts : (before ++ last.value.toList) ++ behind = front ++ (token.value.toList ++ rest) := by
    rw [List.append_assoc, ← whole, wholeToo]
  obtain ⟨-, rfl⟩ := Text.parts_inj parts widths
  have same : source =
      before ++ ((last.value.toList ++ token.value.toList) ++ rest) := by
    rw [whole, List.append_assoc]
  have reached : token.span.stop =
      Text.width before + Text.width (last.value.toList ++ token.value.toList) := by
    rw [Text.width_append]
    omega
  constructor
  · rw [same, ← first, reached]
    exact Text.part_append before _ rest
  · refine ⟨before, rest, by rw [String.toList_append]; exact same, first, ?_⟩
    rw [String.toList_append, ← first]
    exact reached

theorem join_apart {last : Token} (apart : last.kind ≠ .text) (tokens : List Token) :
    join last tokens = last :: tokens := by
  cases tokens <;> simp [join, apart]

theorem join_char (offset : Nat) (c : Char) (tokens : List Token) :
    join (Item.toToken (.char offset c)) tokens = Token.consChar offset c tokens := by
  cases tokens with
  | nil => rfl
  | cons next rest =>
      obtain ⟨kind, value, span⟩ := next
      cases kind <;> rfl

/-- A character behind a token of text belongs to it. -/
theorem join_cons_char {last : Token} (text : last.kind = .text) (offset : Nat) (c : Char)
    (tokens : List Token) :
    join last (Token.consChar offset c tokens) =
      join ⟨.text, last.value ++ String.singleton c, ⟨last.span.first, offset + c.utf8Size⟩⟩
        tokens := by
  cases tokens with
  | nil => simp [join, Token.consChar, text]
  | cons next rest =>
      obtain ⟨kind, value, span⟩ := next
      cases kind with
      | text => simp only [join, Token.consChar, text, and_self, if_true, String.append_assoc]
      | _ => simp [join, Token.consChar, text]

/-- Whether the text of a token is a part of the source can be told from where it stands. -/
def Borrows (source : List Char) (merged : Merged) : Prop :=
  merged.token.kind = .text → merged.borrowed = true → Stands source merged.token

/-- Adding the token of an item, by what the item is and what the token before it is. -/
theorem add_item {source : List Char} {item : Item} (stands : item.Stands source) {last : Merged}
    (borrows : last.Borrows source) (earlier : List Merged) :
    ∃ next others, add source (last :: earlier) item.toToken = .ok (next :: others) ∧
      next.Borrows source ∧ ∀ rest,
        (earlier.map token).reverse ++ join last.token (Token.ofItems (item :: rest)) =
          (others.map token).reverse ++ join next.token (Token.ofItems rest) := by
  cases item with
  | tag tagged =>
      have notText : tagged.kind ≠ .text := stands
      refine ⟨⟨tagged, true⟩, last :: earlier, ?_, fun text => absurd text notText, fun rest => ?_⟩
      · rw [add, Item.toToken, if_neg fun both => notText both.1]
        rfl
      · have kept : join last.token (tagged :: Token.ofItems rest) =
            last.token :: tagged :: Token.ofItems rest := if_neg fun both => notText both.1
        rw [Token.ofItems, kept, join_apart notText]
        simp
  | char offset c =>
      by_cases text : last.token.kind = .text
      · have both : (Item.toToken (.char offset c)).kind = .text ∧ last.token.kind = .text :=
          ⟨rfl, text⟩
        let whole : Token := ⟨.text, last.token.value ++ String.singleton c,
          ⟨last.token.span.first, offset + c.utf8Size⟩⟩
        by_cases touches : last.token.span.stop = (Item.toToken (.char offset c)).span.first ∧
            last.borrowed
        · obtain ⟨cut, standsBehind⟩ :=
            (borrows text touches.2).merge (stands_of_char stands) touches.1
          refine ⟨⟨whole, true⟩, earlier, ?_, fun _ _ => standsBehind, fun rest => ?_⟩
          · rw [add, if_pos both, if_pos touches, cut]
            simp only [bind, Except.bind, pure, Except.pure, String.ofList_append,
              String.ofList_toList]
            rfl
          · rw [Token.ofItems, join_cons_char text]
        · refine ⟨⟨whole, false⟩, earlier, ?_, fun _ copied => absurd copied (by simp),
            fun rest => ?_⟩
          · rw [add, if_pos both, if_neg touches]
            rfl
          · rw [Token.ofItems, join_cons_char text]
      · refine ⟨⟨Item.toToken (.char offset c), true⟩, last :: earlier, ?_, fun _ _ => ?_,
          fun rest => ?_⟩
        · rw [add, if_neg fun both => text both.2]
          rfl
        · exact stands_of_char stands
        · rw [Token.ofItems, join_apart text, join_char]
          simp

theorem fold_add {source : List Char} {items : List Item}
    (stands : ∀ item ∈ items, item.Stands source) {last : Merged}
    (borrows : last.Borrows source) (earlier : List Merged) :
    ∃ merged, (items.map Item.toToken).foldlM (add source) (last :: earlier) = .ok merged ∧
      (merged.map token).reverse =
        (earlier.map token).reverse ++ join last.token (Token.ofItems items) := by
  induction items generalizing last earlier with
  | nil => exact ⟨last :: earlier, rfl, by simp [Token.ofItems, join]⟩
  | cons item rest ih =>
      obtain ⟨here, behind⟩ := List.forall_mem_cons.1 stands
      obtain ⟨next, others, added, borrowsBehind, same⟩ := add_item here borrows earlier
      obtain ⟨merged, folds, tokens⟩ := ih behind borrowsBehind others
      refine ⟨merged, ?_, by rw [tokens, same]⟩
      rw [List.map_cons, List.foldlM_cons, added]
      exact folds

end Merged

/-- Merges tokens of text that follow each other. -/
def Token.squash (source : List Char) (tokens : List Token) : Except Torn (List Token) := do
  let merged ← tokens.foldlM (Merged.add source) []
  return (merged.map Merged.token).reverse

/-- No merged text is cut out of the source within a character. -/
theorem Token.squash_of_items {source : List Char} {items : List Item}
    (stands : ∀ item ∈ items, item.Stands source) :
    Token.squash source (items.map Item.toToken) = .ok (Token.ofItems items) := by
  cases items with
  | nil => rfl
  | cons item rest =>
      obtain ⟨here, behind⟩ := List.forall_mem_cons.1 stands
      have borrows : Merged.Borrows source ⟨item.toToken, true⟩ := by
        intro text _
        cases item with
        | tag => exact absurd text here
        | char => exact Merged.stands_of_char here
      obtain ⟨merged, folds, tokens⟩ := Merged.fold_add behind borrows []
      have joined : Merged.join item.toToken (Token.ofItems rest) =
          Token.ofItems (item :: rest) := by
        cases item with
        | tag => exact Merged.join_apart here _
        | char offset c => exact Merged.join_char offset c _
      rw [squash, List.map_cons, List.foldlM_cons]
      have begun : Merged.add source [] item.toToken = .ok [⟨item.toToken, true⟩] := rfl
      simp only [begun, bind, Except.bind, folds, pure, Except.pure, tokens, List.map_nil,
        List.reverse_nil, List.nil_append, joined]

/-- The buffer, filled item by item and squashed, comes to the tokens of the items that are kept. -/
theorem Token.squash_of_buffer {source : List Char} {items : List Item}
    (covers : Item.Covers 0 source items) :
    Token.squash source (items.foldl LineBuffer.push {}).tokens =
      .ok (Token.ofItems (settleLines {} items)) := by
  have stands : ∀ item ∈ settleLines {} items, item.Stands source := by
    intro item among
    rcases mem_of_settled among with nothing | inside
    · cases nothing
    · exact @Item.Covers.stands [] source items covers item inside
  rw [LineBuffer.tokens_eq_settled, Token.squash_of_items stands]

end Mustache

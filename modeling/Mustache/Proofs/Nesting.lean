import Mustache.Node
import Mustache.Proofs.Tiling

/-!
The tree of a template. The balance of sections is a run over the tokens, and nesting is a
second run that keeps a stack of its own. The two stacks hold the same sections all along, so
nesting fails on no tokens that are balanced. Listed in the order of the text the tree is the
tokens again, less the end of each opening tag; so the nodes stand on the text as the tokens
do, and sections nest no deeper than the balance permits.
-/

namespace Mustache

/-! ### The balance of tokens -/

theorem sections_behind_eq_fold (opened : List OpenSection) (items : List Item) :
    sectionsBehind opened items =
      (items.filterMap Item.tag?).foldlM Token.shiftSections opened := by
  induction items generalizing opened with
  | nil => rfl
  | cons item rest ih =>
      cases item with
      | char offset c => exact ih opened
      | tag token =>
          simp only [sectionsBehind, Item.tag?, List.filterMap_cons, List.foldlM_cons]
          cases token.shiftSections opened with
          | error located => rfl
          | ok left => exact ih left

/-- Text leaves the open sections as they are. -/
theorem Token.fold_sections_cons_char (opened : List OpenSection) (offset : Nat) (c : Char)
    (tokens : List Token) :
    (Token.consChar offset c tokens).foldlM Token.shiftSections opened =
      tokens.foldlM Token.shiftSections opened := by
  cases tokens with
  | nil => rfl
  | cons token rest =>
      obtain ⟨kind, value, span⟩ := token
      cases kind <;> rfl

theorem Token.fold_sections_of_items (opened : List OpenSection) (items : List Item) :
    (Token.ofItems items).foldlM Token.shiftSections opened = sectionsBehind opened items := by
  rw [sections_behind_eq_fold]
  induction items generalizing opened with
  | nil => rfl
  | cons item rest ih =>
      cases item with
      | char offset c =>
          rw [Token.ofItems, Token.fold_sections_cons_char]
          exact ih opened
      | tag token =>
          simp only [Token.ofItems, Item.tag?, List.filterMap_cons, List.foldlM_cons, ih]

theorem Token.fold_sections_append {opened left : List OpenSection} {first : List Token}
    (reaches : first.foldlM Token.shiftSections opened = .ok left) (second : List Token) :
    (first ++ second).foldlM Token.shiftSections opened =
      second.foldlM Token.shiftSections left := by
  rw [List.foldlM_append, reaches]
  rfl

theorem Token.fold_sections_cons {opened left : List OpenSection} {token : Token}
    (reaches : token.shiftSections opened = .ok left) (rest : List Token) :
    (token :: rest).foldlM Token.shiftSections opened =
      rest.foldlM Token.shiftSections left := by
  rw [List.foldlM_cons, reaches]
  rfl

theorem Token.balanced_of_text {delimiters : Delimiters} {text : List Char}
    {tokens : List Token} (made : Token.ofText delimiters text = .ok tokens) :
    tokens.foldlM Token.shiftSections [] = .ok [] := by
  obtain ⟨items, _, closed, rfl⟩ := Token.of_text_eq_ok_iff.1 made
  rw [Token.fold_sections_of_items, sections_behind_eq_fold, settle_lines_tags,
    ← sections_behind_eq_fold, closed]

def TokenKind.opens : TokenKind → Bool
  | .opening | .inverted => true
  | _ => false

/-- All that a token can do to the open sections. -/
theorem Token.shift_sections_cases {token : Token} {opened left : List OpenSection}
    (shifted : token.shiftSections opened = .ok left) :
    (token.kind.opens = true ∧ opened.length < sectionLimit ∧
        left = ⟨token.value, token.span.first⟩ :: opened) ∨
      (token.kind = .closing ∧ ∃ offset, opened = ⟨token.value, offset⟩ :: left) ∨
      (token.kind.opens = false ∧ token.kind ≠ .closing ∧ left = opened) := by
  obtain ⟨kind, value, span⟩ := token
  cases kind with
  | opening | inverted =>
      left
      simp only [Token.shiftSections] at shifted
      split at shifted
      · contradiction
      next room => exact ⟨rfl, by omega, (Except.ok.inj shifted).symm⟩
  | closing =>
      right; left
      simp only [Token.shiftSections] at shifted
      split at shifted
      · contradiction
      next innermost outer =>
        split at shifted
        next same =>
          obtain rfl := Except.ok.inj shifted
          exact ⟨rfl, innermost.offset, by rw [← same]⟩
        · contradiction
  | text | escaped | unescaped | inclusion | comment | delimiters =>
      right; right
      exact ⟨rfl, by simp, (Except.ok.inj shifted).symm⟩

def Token.mark (token : Token) : TokenKind × String := (token.kind, token.value)

/-- Every section is closed under its own name before any around it, and there is room for all that
are open at once. -/
inductive WellNested : Nat → List (TokenKind × String) → Prop
  | nil {room : Nat} : WellNested room []
  | leaf {room : Nat} {kind : TokenKind} {value : String} {rest : List (TokenKind × String)}
      (opens : kind.opens = false) (closes : kind ≠ .closing) (behind : WellNested room rest) :
      WellNested room ((kind, value) :: rest)
  | within {room : Nat} {kind : TokenKind} {name : String}
      {inside behind : List (TokenKind × String)} (opens : kind.opens = true)
      (nested : WellNested room inside) (follows : WellNested (room + 1) behind) :
      WellNested (room + 1) ((kind, name) :: (inside ++ (.closing, name) :: behind))

/-- Well-nested tokens leave the sections open that were open before them. -/
theorem WellNested.balanced {room : Nat} {marks : List (TokenKind × String)}
    (nested : WellNested room marks) {tokens : List Token}
    (marked : tokens.map Token.mark = marks) {opened : List OpenSection}
    (bound : opened.length + room ≤ sectionLimit) :
    tokens.foldlM Token.shiftSections opened = .ok opened := by
  induction nested generalizing tokens opened with
  | nil =>
      obtain rfl := List.map_eq_nil_iff.1 marked
      rfl
  | leaf opens closes _ ih =>
      obtain ⟨⟨kind, value, span⟩, rest, rfl, same, behind⟩ := List.map_eq_cons_iff.1 marked
      obtain ⟨rfl, rfl⟩ := Prod.mk.inj same
      have stays : Token.shiftSections opened ⟨kind, value, span⟩ = .ok opened := by
        cases kind with
        | opening | inverted | closing => contradiction
        | _ => rfl
      rw [Token.fold_sections_cons stays]
      exact ih behind bound
  | within opens _ _ inner outer =>
      obtain ⟨⟨kind, name, span⟩, rest, rfl, same, others⟩ := List.map_eq_cons_iff.1 marked
      obtain ⟨rfl, rfl⟩ := Prod.mk.inj same
      obtain ⟨inside, behind, rfl, marksInside, marksBehind⟩ := List.map_eq_append_iff.1 others
      obtain ⟨⟨closingKind, closingName, closingSpan⟩, behind, rfl, same, marksAfter⟩ :=
        List.map_eq_cons_iff.1 marksBehind
      obtain ⟨rfl, rfl⟩ := Prod.mk.inj same
      have enters : Token.shiftSections opened ⟨kind, closingName, span⟩ =
          .ok (⟨closingName, span.first⟩ :: opened) := by
        have below : ¬ sectionLimit ≤ opened.length := by omega
        cases kind with
        | opening | inverted => exact if_neg below
        | _ => contradiction
      have leaves : Token.shiftSections (⟨closingName, span.first⟩ :: opened)
          ⟨.closing, closingName, closingSpan⟩ = .ok opened := if_pos rfl
      have within := inner marksInside
        (show (⟨closingName, span.first⟩ :: opened).length + _ ≤ sectionLimit by
          rw [List.length_cons]; omega)
      rw [Token.fold_sections_cons enters, Token.fold_sections_append within,
        Token.fold_sections_cons leaves]
      exact outer marksAfter bound

/-! ### The listing of a tree -/

/-- What a listing has of a token: all of it, but of an opening tag no end. -/
structure Listed where
  kind : TokenKind
  value : String
  first : Nat
  stop : Option Nat
  deriving DecidableEq, Repr

def Token.entry (token : Token) : Listed :=
  ⟨token.kind, token.value, token.span.first,
    if token.kind.opens then none else some token.span.stop⟩

namespace Node

def leafListed (kind : TokenKind) (value : String) (span : Span) : Listed :=
  ⟨kind, value, span.first, some span.stop⟩

mutual

/-- A node in the order of the text. A section begins with an entry for its opening tag and ends
with one for its closing tag, both of its name. -/
def entries : Node → List Listed
  | .text content span => [leafListed .text content span]
  | .escaped name span => [leafListed .escaped name span]
  | .unescaped name span => [leafListed .unescaped name span]
  | .sectionOf name children closing span =>
      ⟨.opening, name, span.first, none⟩ ::
        (entriesOfAll children ++ [⟨.closing, name, closing, some span.stop⟩])
  | .invertedOf name children closing span =>
      ⟨.inverted, name, span.first, none⟩ ::
        (entriesOfAll children ++ [⟨.closing, name, closing, some span.stop⟩])
  | .inclusion name span => [leafListed .inclusion name span]
  | .comment content span => [leafListed .comment content span]
  | .delimiters content span => [leafListed .delimiters content span]

def entriesOfAll : List Node → List Listed
  | [] => []
  | node :: rest => node.entries ++ entriesOfAll rest

end

/-- Where the closing tag of a section begins. -/
def closing? : Node → Option Nat
  | .sectionOf _ _ closing _ | .invertedOf _ _ closing _ => some closing
  | _ => none

def isSection (node : Node) : Bool := node.closing?.isSome

theorem entries_of_all_eq_flat_map (nodes : List Node) :
    entriesOfAll nodes = nodes.flatMap entries := by
  induction nodes with
  | nil => rfl
  | cons node rest ih => rw [entriesOfAll, ih, List.flatMap_cons]

theorem entries_of_section {opened closed : Token} (opens : opened.kind.opens = true)
    (closes : closed.kind = .closing) (same : closed.value = opened.value)
    (children : List Node) :
    (ofSection opened closed children).entries =
      opened.entry :: (entriesOfAll children ++ [closed.entry]) := by
  obtain ⟨kind, name, span⟩ := opened
  obtain ⟨closedKind, closedName, closedSpan⟩ := closed
  obtain rfl : closedKind = .closing := closes
  obtain rfl : closedName = name := same
  cases kind with
  | opening | inverted => rfl
  | _ => contradiction

theorem children_of_section (opened closed : Token) (children : List Node) :
    (ofSection opened closed children).children = children := by
  simp only [ofSection]
  split <;> rfl

/-- A way down a tree: a node of it, and behind each section one of its children or nothing. -/
inductive Path : List Node → List Node → Prop
  | last {nodes : List Node} {node : Node} (among : node ∈ nodes) : Path nodes [node]
  | down {nodes : List Node} {node : Node} {below : List Node} (among : node ∈ nodes)
      (inside : Path node.children below) : Path nodes (node :: below)

/-- No way down passes more sections than there is room for. -/
def Shallow (room : Nat) (nodes : List Node) : Prop :=
  ∀ path, Path nodes path → path.countP isSection ≤ room

theorem Path.among {nodes path : List Node} (way : Path nodes path) :
    ∃ node below, path = node :: below ∧ node ∈ nodes ∧
      (below = [] ∨ Path node.children below) := by
  cases way with
  | last among => exact ⟨_, _, rfl, among, Or.inl rfl⟩
  | down among inside => exact ⟨_, _, rfl, among, Or.inr inside⟩

theorem Shallow.subset {room : Nat} {nodes others : List Node} (shallow : Shallow room nodes)
    (subset : ∀ node ∈ others, node ∈ nodes) : Shallow room others := by
  intro path way
  cases way with
  | last among => exact shallow _ (.last (subset _ among))
  | down among inside => exact shallow _ (.down (subset _ among) inside)

theorem Shallow.nil (room : Nat) : Shallow room [] := by
  intro path way
  cases way with
  | last among => simp at among
  | down among _ => simp at among

theorem Shallow.cons {room : Nat} {node : Node} {nodes : List Node} (shallow : Shallow room nodes)
    (own : ∀ below, below = [] ∨ Path node.children below →
      (node :: below).countP isSection ≤ room) : Shallow room (node :: nodes) := by
  intro path way
  cases way with
  | last among =>
      rcases List.mem_cons.1 among with rfl | later
      · exact own [] (Or.inl rfl)
      · exact shallow _ (.last later)
  | down among inside =>
      rcases List.mem_cons.1 among with rfl | later
      · exact own _ (Or.inr inside)
      · exact shallow _ (.down later inside)

theorem Shallow.cons_section {room : Nat} {opened closed : Token} {children nodes : List Node}
    (inner : Shallow room children) (outer : Shallow (room + 1) nodes) :
    Shallow (room + 1) (ofSection opened closed children :: nodes) := by
  refine outer.cons ?_
  intro below way
  have inside : below.countP isSection ≤ room := by
    rcases way with rfl | way
    · simp
    · rw [children_of_section] at way
      exact inner below way
  rw [List.countP_cons]
  split <;> omega

/-! ### The two stacks -/

def Fits (opened : OpenSection) (kept : OpenNode) : Prop :=
  opened.name = kept.tag.value ∧ kept.tag.kind.opens = true

/-- The listing of what has been read: the sections still open, and the nodes before and in them. -/
def standing : List OpenNode → List Node → List Listed
  | [], done => entriesOfAll done.reverse
  | innermost :: outer, done =>
      standing outer innermost.before ++ innermost.tag.entry :: entriesOfAll done.reverse

/-- The sections around the nodes read so far leave them room for those inside. -/
def LeavesRoom : List OpenNode → List Node → Prop
  | [], done => Shallow sectionLimit done
  | innermost :: outer, done =>
      outer.length < sectionLimit ∧ Shallow (sectionLimit - outer.length - 1) done ∧
        LeavesRoom outer innermost.before

theorem standing_cons (opened : List OpenNode) (done : List Node) (node : Node) :
    standing opened (node :: done) = standing opened done ++ node.entries := by
  cases opened with
  | nil => simp [standing, entries_of_all_eq_flat_map]
  | cons innermost outer => simp [standing, entries_of_all_eq_flat_map]

theorem LeavesRoom.shallow {opened : List OpenNode} {done : List Node}
    (room : LeavesRoom opened done) : Shallow (sectionLimit - opened.length) done := by
  cases opened with
  | nil => exact room
  | cons innermost outer =>
      rw [List.length_cons, ← Nat.sub_sub]
      exact room.2.1

theorem LeavesRoom.with_done {opened : List OpenNode} {done others : List Node}
    (room : LeavesRoom opened done) (shallow : Shallow (sectionLimit - opened.length) others) :
    LeavesRoom opened others := by
  cases opened with
  | nil => exact shallow
  | cons innermost outer =>
      rw [List.length_cons, ← Nat.sub_sub] at shallow
      exact ⟨room.1, shallow, room.2.2⟩

theorem LeavesRoom.leaf {opened : List OpenNode} {done : List Node} {node : Node}
    (room : LeavesRoom opened done) (plain : node.isSection = false)
    (childless : node.children = []) : LeavesRoom opened (node :: done) := by
  refine room.with_done (room.shallow.cons ?_)
  intro below way
  obtain rfl : below = [] := by
    rcases way with rfl | way
    · rfl
    · rw [childless] at way
      obtain ⟨first, _, _, among, _⟩ := way.among
      simp at among
  simp [plain]

theorem LeavesRoom.closed {innermost : OpenNode} {outer : List OpenNode} {done : List Node}
    (room : LeavesRoom (innermost :: outer) done) (token : Token) :
    LeavesRoom outer (ofSection innermost.tag token done.reverse :: innermost.before) := by
  obtain ⟨below, inside, around⟩ := room
  have inner := inside.subset fun node member => List.mem_reverse.1 member
  have levels : sectionLimit - outer.length - 1 + 1 = sectionLimit - outer.length := by omega
  have enclosing := around.shallow
  rw [← levels] at enclosing
  exact around.with_done (levels ▸ inner.cons_section enclosing)

section Steps

variable {token : Token} (opened : List OpenNode) (done : List Node) (rest : List Token)

theorem nest_from_opening (opens : token.kind.opens = true) :
    nestFrom opened done (token :: rest) = nestFrom (⟨token, done⟩ :: opened) [] rest := by
  obtain ⟨kind, value, span⟩ := token
  cases kind with
  | opening | inverted => rfl
  | _ => contradiction

theorem nest_from_closing (innermost : OpenNode) (closes : token.kind = .closing) :
    nestFrom (innermost :: opened) done (token :: rest) =
      nestFrom opened (ofSection innermost.tag token done.reverse :: innermost.before) rest := by
  obtain ⟨kind, value, span⟩ := token
  obtain rfl : kind = .closing := closes
  rfl

/-- A token that neither opens nor closes becomes a node of its own. -/
theorem nest_from_leaf (opens : token.kind.opens = false) (closes : token.kind ≠ .closing) :
    ∃ node, nestFrom opened done (token :: rest) = nestFrom opened (node :: done) rest ∧
      node.entries = [token.entry] ∧ node.isSection = false ∧ node.children = [] := by
  obtain ⟨kind, value, span⟩ := token
  cases kind with
  | opening | inverted | closing => contradiction
  | _ => exact ⟨_, rfl, rfl, rfl, rfl⟩

end Steps

/-- Nesting tokens whose sections balance: it gives a tree, whose listing is that of what was read
before and of the tokens. -/
theorem nest_from_lists {sections : List OpenSection} {opened : List OpenNode} {done : List Node}
    {tokens : List Token} (fits : List.Forall₂ Fits sections opened)
    (closed : tokens.foldlM Token.shiftSections sections = .ok [])
    (room : LeavesRoom opened done) :
    ∃ nodes, nestFrom opened done tokens = .ok nodes ∧
      entriesOfAll nodes = standing opened done ++ tokens.map Token.entry ∧
      Shallow sectionLimit nodes := by
  induction tokens generalizing sections opened done with
  | nil =>
      obtain rfl : sections = [] := Except.ok.inj closed
      cases fits
      refine ⟨done.reverse, rfl, by simp [standing], ?_⟩
      exact Shallow.subset room fun node member => List.mem_reverse.1 member
  | cons token rest ih =>
      cases shifted : token.shiftSections sections with
      | error located =>
          rw [List.foldlM_cons, shifted] at closed
          contradiction
      | ok left =>
          rw [Token.fold_sections_cons shifted] at closed
          have depth := fits.length_eq
          rcases Token.shift_sections_cases shifted with
            ⟨opens, below, rfl⟩ | ⟨closes, offset, rfl⟩ | ⟨opens, closes, rfl⟩
          · have inner : LeavesRoom (⟨token, done⟩ :: opened) [] :=
              ⟨by omega, Shallow.nil _, room⟩
            obtain ⟨nodes, nested, listed, shallow⟩ := ih (.cons ⟨rfl, opens⟩ fits) closed inner
            refine ⟨nodes, ?_, ?_, shallow⟩
            · rw [nest_from_opening opened done rest opens, nested]
            · rw [listed]
              simp [standing, entriesOfAll]
          · obtain _ | @⟨_, innermost, _, outer, ⟨name, opens⟩, fits⟩ := fits
            obtain ⟨nodes, nested, listed, shallow⟩ := ih fits closed (room.closed token)
            refine ⟨nodes, ?_, ?_, shallow⟩
            · rw [nest_from_closing outer done rest innermost closes, nested]
            · rw [listed, standing_cons, entries_of_section opens closes name]
              simp [standing]
          · obtain ⟨node, nests, lists, plain, childless⟩ :=
              nest_from_leaf opened done rest opens closes
            obtain ⟨nodes, nested, listed, shallow⟩ :=
              ih fits closed (room.leaf plain childless)
            refine ⟨nodes, ?_, ?_, shallow⟩
            · rw [nests, nested]
            · rw [listed, standing_cons, lists]
              simp

/-! ### Where nodes stand -/

/-- The node stands wholly in front of the other. -/
def Before (node other : Node) : Prop :=
  node.span.first < other.span.first ∧ node.span.stop ≤ other.span.first

/-- Nodes stand one behind the other, and those of a section between its opening and its closing
tag; no more sections than permitted lie one in another. -/
structure WellPlaced (nodes : List Node) : Prop where
  ascending : nodes.Pairwise Before
  children_ascending : ∀ path, Path nodes path → ∀ node ∈ path, node.children.Pairwise Before
  inside : ∀ above holder below, Path nodes (above ++ holder :: below) →
    ∀ closing ∈ holder.closing?, ∀ node ∈ below,
      holder.span.first < node.span.first ∧ node.span.stop ≤ closing
  closed : ∀ path, Path nodes path → ∀ holder ∈ path, ∀ closing ∈ holder.closing?,
    closing < holder.span.stop
  shallow : ∀ path, Path nodes path → path.countP isSection ≤ sectionLimit

end Node

/-- The entry stands wholly in front of the other, as far as its end is listed. -/
def Listed.Before (entry other : Listed) : Prop :=
  entry.first < other.first ∧ ∀ stop ∈ entry.stop, stop ≤ other.first

/-- Entries one behind the other, none of them empty. -/
structure Listed.Ascending (entries : List Listed) : Prop where
  filled : ∀ entry ∈ entries, ∀ stop ∈ entry.stop, entry.first < stop
  ordered : entries.Pairwise Listed.Before

theorem Listed.Ascending.sublist {entries others : List Listed} (ascending : Ascending entries)
    (sublist : others.Sublist entries) : Ascending others where
  filled entry member := ascending.filled entry (sublist.subset member)
  ordered := ascending.ordered.sublist sublist

theorem Token.stop_of_mem_entry {token : Token} {stop : Nat} (listed : stop ∈ token.entry.stop) :
    stop = token.span.stop := by
  simp only [Token.entry] at listed
  split at listed
  · simp at listed
  · simpa [eq_comm] using listed

theorem Token.Tiling.entries_ascending {delimiters : Delimiters} {text : List Char}
    {tokens : List Token} (tiling : Token.Tiling delimiters text tokens) :
    Listed.Ascending (tokens.map Token.entry) where
  filled entry member stop listed := by
    obtain ⟨token, among, rfl⟩ := List.mem_map.1 member
    rw [Token.stop_of_mem_entry listed]
    exact tiling.filled token among
  ordered := by
    rw [List.pairwise_map]
    refine tiling.ascending.imp_of_mem ?_
    intro token other among _ follows
    refine ⟨Nat.lt_of_lt_of_le (tiling.filled token among) follows, ?_⟩
    intro stop listed
    rw [Token.stop_of_mem_entry listed]
    exact follows

namespace Node

theorem exists_first_entry (node : Node) :
    ∃ entry ∈ node.entries, entry.first = node.span.first := by
  cases node <;> exact ⟨_, List.mem_cons_self, rfl⟩

theorem exists_last_entry (node : Node) :
    ∃ entry ∈ node.entries, entry.stop = some node.span.stop := by
  cases node with
  | sectionOf name children closing span | invertedOf name children closing span =>
      exact ⟨⟨.closing, name, closing, some span.stop⟩, by simp [entries], rfl⟩
  | _ => exact ⟨_, List.mem_cons_self, rfl⟩

/-- A section is listed as an entry at its beginning, its children, and an entry from its closing
tag to its end. -/
theorem entries_of_closing {node : Node} {closing : Nat} (closes : closing ∈ node.closing?) :
    ∃ opening last, node.entries = opening :: (entriesOfAll node.children ++ [last]) ∧
      opening.first = node.span.first ∧ last.first = closing ∧ last.stop = some node.span.stop := by
  cases node with
  | sectionOf _ _ _ _ | invertedOf _ _ _ _ =>
      cases Option.some.inj closes
      exact ⟨_, _, rfl, rfl, rfl, rfl⟩
  | _ => simp [closing?] at closes

theorem children_sublist (node : Node) :
    (entriesOfAll node.children).Sublist node.entries := by
  cases node with
  | sectionOf _ _ _ _ | invertedOf _ _ _ _ =>
      exact (List.sublist_append_left _ _).trans (List.sublist_cons_self _ _)
  | _ => exact List.nil_sublist _

theorem entries_sublist_of_mem {nodes : List Node} {node : Node} (among : node ∈ nodes) :
    node.entries.Sublist (entriesOfAll nodes) := by
  rw [entries_of_all_eq_flat_map]
  obtain ⟨before, after, rfl⟩ := List.append_of_mem among
  simp

theorem children_sublist_of_mem {nodes : List Node} {node : Node} (among : node ∈ nodes) :
    (entriesOfAll node.children).Sublist (entriesOfAll nodes) :=
  node.children_sublist.trans (entries_sublist_of_mem among)

theorem Path.entries_sublist {nodes path : List Node} (way : Path nodes path) :
    ∀ node ∈ path, node.entries.Sublist (entriesOfAll nodes) := by
  induction way with
  | last among => simpa using entries_sublist_of_mem among
  | down among _ ih =>
      refine List.forall_mem_cons.2 ⟨entries_sublist_of_mem among, ?_⟩
      intro node member
      exact (ih node member).trans (children_sublist_of_mem among)

theorem Path.under_holder {nodes above below : List Node} {holder : Node}
    (way : Path nodes (above ++ holder :: below)) (deeper : below ≠ []) :
    Path holder.children below := by
  induction above generalizing nodes with
  | nil =>
      cases way with
      | last _ => exact absurd rfl deeper
      | down _ inside => exact inside
  | cons first above ih =>
      cases above with
      | nil =>
          cases way with
          | down _ inside => exact ih inside
      | cons second above =>
          cases way with
          | down _ inside => exact ih inside

theorem pairwise_before {nodes : List Node} (ascending : Listed.Ascending (entriesOfAll nodes)) :
    nodes.Pairwise Before := by
  have ordered := ascending.ordered
  rw [entries_of_all_eq_flat_map, List.pairwise_flatMap] at ordered
  refine ordered.2.imp ?_
  intro node other apart
  obtain ⟨opening, begins, first⟩ := node.exists_first_entry
  obtain ⟨last, ends, stop⟩ := node.exists_last_entry
  obtain ⟨next, follows, nextFirst⟩ := other.exists_first_entry
  constructor
  · rw [← first, ← nextFirst]
    exact (apart opening begins next follows).1
  · rw [← nextFirst]
    exact (apart last ends next follows).2 _ stop

theorem well_placed {nodes : List Node} (ascending : Listed.Ascending (entriesOfAll nodes))
    (shallow : Shallow sectionLimit nodes) : WellPlaced nodes where
  ascending := pairwise_before ascending
  children_ascending path way node member :=
    pairwise_before (ascending.sublist
      (node.children_sublist.trans (way.entries_sublist node member)))
  inside above holder below way closing closes node member := by
    have inner := way.under_holder (List.ne_nil_of_mem member)
    have listed := inner.entries_sublist node member
    have own := ascending.sublist (way.entries_sublist holder (by simp))
    obtain ⟨opening, last, shape, first, closingFirst, _⟩ := entries_of_closing closes
    rw [shape] at own
    obtain ⟨afterOpening, ordered⟩ := List.pairwise_cons.1 own.ordered
    obtain ⟨_, _, beforeLast⟩ := List.pairwise_append.1 ordered
    obtain ⟨begin, begins, nodeFirst⟩ := node.exists_first_entry
    obtain ⟨ending, ends, nodeStop⟩ := node.exists_last_entry
    constructor
    · rw [← first, ← nodeFirst]
      exact (afterOpening begin (by simp [listed.subset begins])).1
    · rw [← closingFirst]
      exact (beforeLast ending (listed.subset ends) last (by simp)).2 _ nodeStop
  closed path way holder member closing closes := by
    have own := ascending.sublist (way.entries_sublist holder member)
    obtain ⟨opening, last, shape, _, closingFirst, stop⟩ := entries_of_closing closes
    rw [← closingFirst]
    exact own.filled last (by simp [shape]) _ stop
  shallow := shallow

end Node

/-- A template has a tree exactly when it has tokens, and else the fault of its tokens. The tree
lists the tokens, its nodes stand on the text in order, and it is no deeper than permitted. -/
theorem nesting_is_total_and_lossless (delimiters : Delimiters) (source : String) :
    match Token.ofSource delimiters source with
    | .error error => Node.ofSource delimiters source = .error error
    | .ok tokens =>
        ∃ nodes, Node.nest tokens = .ok nodes ∧ Node.ofSource delimiters source = .ok nodes ∧
          Node.entriesOfAll nodes = tokens.map Token.entry ∧ Node.WellPlaced nodes := by
  cases made : Token.ofSource delimiters source with
  | error error => simp only [Node.ofSource, made]
  | ok tokens =>
      have whole := Token.of_source_eq_ok_iff.1 made
      have room : Node.LeavesRoom [] [] := Node.Shallow.nil _
      obtain ⟨nodes, nested, listed, shallow⟩ :=
        Node.nest_from_lists .nil (Token.balanced_of_text whole) room
      have lists : Node.entriesOfAll nodes = tokens.map Token.entry := listed
      refine ⟨nodes, nested, ?_, lists, Node.well_placed ?_ shallow⟩
      · simp only [Node.ofSource, made, Node.nest, nested, Except.mapError]
      · rw [lists]
        obtain ⟨items, _, rfl, tiles⟩ := Token.kept_items_tile whole
        exact (Token.tiles_of_items tiles).tiling.entries_ascending

end Mustache

import Mustache.Proofs.BytePositions

/-!
A cursor over the bytes of a text. It is moved over something that stands where the cursor is, or up
to where that is found next: blanks, the sigil of a tag, or a text with blanks before or behind that
belong to it. What it is moved by is counted in bytes, and what it passes is cut out of the text. It
is always between two characters, and where something is found that thing stands.
-/

namespace Mustache

namespace Text

/-- The bytes of the blanks a text begins with. -/
def blankWidth (text : List Char) : Nat := width text - width (dropBlank text)

theorem drop_blank_width (text : List Char) :
    blankWidth text + width (dropBlank text) = width text := by
  obtain ⟨blanks, _, same⟩ := drop_blank_split text
  have widths := congrArg width same
  rw [width_append] at widths
  rw [blankWidth]
  omega

theorem blank_width_of_blanks {blanks : List Char} (blank : ∀ c ∈ blanks, isBlank c = true)
    {rest : List Char} (solid : ∀ c ∈ rest.head?, isBlank c = false) :
    blankWidth (blanks ++ rest) = width blanks := by
  rw [blankWidth, drop_blank_padded blank solid, width_append]
  omega

end Text

/-- What a cursor may look for. -/
inductive Sought
  | blanks
  | sigil
  | literal (chars : List Char) (blanksBefore blanksBehind : Bool)
  deriving DecidableEq, Repr

namespace Sought

/-- How many bytes at the beginning of the text are what is sought. -/
def here : Sought → List Char → Except Torn (Option Nat)
  | .blanks, text => return some (Text.blankWidth text)
  | .sigil, text =>
      match Text.bytes text with
      | [] => return none
      | byte :: _ => return if byte ∈ Text.bytes sigils then some 1 else none
  | .literal chars blanksBefore blanksBehind, text => do
      let first := if blanksBefore then Text.blankWidth text else 0
      let (_, found) ← Text.divide first text
      if (Text.bytes chars).isPrefixOf (Text.bytes found) then
        let stop := first + Text.width chars
        if blanksBehind then
          let (_, rest) ← Text.divide stop text
          return some (stop + Text.blankWidth rest)
        else return some stop
      else return none

/-- The byte position at which what is sought is found first. -/
def ahead (search : Search) : Sought → List Char → Except Torn (Option Nat)
  | .blanks, _ => return some 0
  | .sigil, text => return (Text.bytes text).findIdx? fun byte => byte ∈ Text.bytes sigils
  | .literal chars blanksBefore _, text =>
      match search (Text.bytes chars) (Text.bytes text) with
      | none => return none
      | some first =>
          if blanksBefore then do
            let (front, _) ← Text.divide first text
            return some (Text.width (Text.trimEnd front))
          else return some first

/-- A text that is sought is not empty, and no blank comes first in it. -/
def Fits : Sought → Prop
  | .blanks | .sigil => True
  | .literal chars _ _ => chars ≠ [] ∧ ∀ c ∈ chars.head?, Text.isBlank c = false

/-- The text without its leading blanks, if they belong to what is sought. -/
def strip (blanks : Bool) (text : List Char) : List Char :=
  if blanks then Text.dropBlank text else text

theorem strip_split (blanks : Bool) (text : List Char) :
    ∃ front, text = front ++ strip blanks text := by
  cases blanks with
  | false => exact ⟨[], rfl⟩
  | true =>
      obtain ⟨front, _, same⟩ := Text.drop_blank_split text
      exact ⟨front, same⟩

theorem width_strip (blanks : Bool) (text : List Char) :
    (if blanks then Text.blankWidth text else 0) + Text.width (strip blanks text) =
      Text.width text := by
  cases blanks with
  | false => exact Nat.zero_add _
  | true => exact Text.drop_blank_width text

/-- Whether a text goes on behind another can be told by their bytes. -/
theorem bytes_begin_eq (chars text : List Char) :
    (Text.bytes chars).isPrefixOf (Text.bytes text) = (Text.after? chars text).isSome := by
  rw [Bool.eq_iff_iff, Text.bytes_begin_iff, Option.isSome_iff_exists]
  exact exists_congr fun rest => eq_comm.trans Text.after_eq_some_iff.symm

theorem here_literal (chars : List Char) (blanksBefore blanksBehind : Bool) (text : List Char) :
    (literal chars blanksBefore blanksBehind).here text =
      .ok ((Text.after? chars (strip blanksBefore text)).map fun rest =>
        Text.width text - Text.width (strip blanksBehind rest)) := by
  obtain ⟨front, same⟩ := strip_split blanksBefore text
  have widths := congrArg Text.width same
  rw [Text.width_append] at widths
  have first : (if blanksBefore then Text.blankWidth text else 0) = Text.width front := by
    have stripped := width_strip blanksBefore text
    omega
  have divided : Text.divide (Text.width front) text = .ok (front, strip blanksBefore text) := by
    conv_lhs => rw [same]
    exact Text.divide_append _ _
  simp only [here, first, divided, bind, Except.bind, bytes_begin_eq]
  cases found : Text.after? chars (strip blanksBefore text) with
  | none => rfl
  | some rest =>
      have whole := Text.after_eq_some_iff.1 found
      rw [whole, Text.width_append] at widths
      have dividedBehind : Text.divide (Text.width front + Text.width chars) text =
          .ok (front ++ chars, rest) := by
        rw [← Text.width_append]
        conv_lhs => rw [same, whole, ← List.append_assoc]
        exact Text.divide_append _ _
      have stripped := width_strip blanksBehind rest
      rw [Option.isSome_some, if_pos rfl, Option.map_some]
      cases blanksBehind with
      | false =>
          simp only [if_neg Bool.false_ne_true, pure, Except.pure] at stripped ⊢
          congr 2
          omega
      | true =>
          simp only [if_true, dividedBehind, pure, Except.pure] at stripped ⊢
          congr 2
          omega

/-- What stands in front of what is found, if blanks belong to that. -/
def kept (blanks : Bool) (front : List Char) : List Char :=
  if blanks then Text.trimEnd front else front

theorem ahead_literal {search : Search} (finds : search.FindsFirst) {chars : List Char}
    (nonempty : chars ≠ []) (blanksBefore blanksBehind : Bool) (text : List Char) :
    (literal chars blanksBefore blanksBehind).ahead search text =
      .ok ((Text.cut? chars text).map fun pair =>
        Text.width (kept blanksBefore pair.1)) := by
  simp only [ahead, Text.search_text finds nonempty]
  cases found : Text.cut? chars text with
  | none => rfl
  | some pair =>
      obtain ⟨front, rest⟩ := pair
      have divided : Text.divide (Text.width front) text = .ok (front, chars ++ rest) := by
        rw [Text.cut_append found]
        exact Text.divide_append _ _
      cases blanksBefore with
      | false => rfl
      | true =>
          simp only [kept, Option.map_some, if_true, divided, bind, Except.bind, pure, Except.pure]

theorem sigil_size {c : Char} (isSigil : c ∈ sigils) : c.utf8Size = 1 := by
  simp only [sigils, List.mem_cons, List.not_mem_nil, or_false] at isSigil
  rcases isSigil with rfl | rfl | rfl | rfl | rfl | rfl | rfl | rfl
  all_goals rfl

theorem sigil_bytes {c : Char} (isSigil : c ∈ sigils) :
    ∃ byte ∈ Text.bytes sigils, Text.bytes [c] = [byte] := by
  have single : (Text.bytes [c]).length = 1 := by
    rw [Text.length_bytes, Text.width, sigil_size isSigil, Text.width]
  obtain ⟨byte, same⟩ := List.length_eq_one_iff.1 single
  have own : byte ∈ Text.bytes [c] := by simp [same]
  refine ⟨byte, List.mem_flatMap.2 ⟨c, isSigil, ?_⟩, same⟩
  simpa [Text.bytes] using own

/-- A byte that belongs to a sigil is all of it. -/
theorem sigil_of_byte {byte : UInt8} (among : byte ∈ Text.bytes sigils) :
    ∃ c ∈ sigils, Text.bytes [c] = [byte] := by
  obtain ⟨c, isSigil, own⟩ := List.mem_flatMap.1 among
  obtain ⟨only, _, same⟩ := sigil_bytes isSigil
  have held : byte ∈ Text.bytes [c] := by simpa [Text.bytes] using own
  rw [same, List.mem_singleton] at held
  exact ⟨c, isSigil, held ▸ same⟩

theorem here_sigil_cons (c : Char) (rest : List Char) :
    sigil.here (c :: rest) = .ok (if c ∈ sigils then some 1 else none) := by
  have whole : Text.bytes (c :: rest) = Text.bytes [c] ++ Text.bytes rest :=
    Text.bytes_append [c] rest
  by_cases isSigil : c ∈ sigils
  · obtain ⟨byte, among, same⟩ := sigil_bytes isSigil
    simp only [here, whole, same, List.singleton_append, if_pos among, if_pos isSigil, pure,
      Except.pure]
  · obtain ⟨byte, others, shape, _⟩ := Text.first_byte_of_bytes c rest
    have apart : byte ∉ Text.bytes sigils := by
      intro among
      obtain ⟨mark, marks, same⟩ := sigil_of_byte among
      have begins : Text.bytes [mark] <+: Text.bytes (c :: rest) := by
        rw [same, shape]
        exact List.prefix_append [byte] others
      obtain ⟨_, heads⟩ := Text.prefix_of_bytes begins
      exact isSigil ((List.cons.inj heads).1 ▸ marks)
    simp only [here, shape, if_neg apart, if_neg isSigil, pure, Except.pure]

theorem ahead_sigil {search : Search} {text : List Char} {position : Nat}
    (found : sigil.ahead search text = .ok (some position)) :
    ∃ before c behind, text = before ++ c :: behind ∧ c ∈ sigils ∧
      Text.width before = position := by
  simp only [ahead, pure, Except.pure, Except.ok.injEq] at found
  obtain ⟨inside, first, _⟩ := List.findIdx?_eq_some_iff_getElem.1 found
  simp only [decide_eq_true_eq] at first
  obtain ⟨c, isSigil, single⟩ := sigil_of_byte first
  have occurs : Text.bytes [c] <+: (Text.bytes text).drop position := by
    rw [single, List.drop_eq_getElem_cons inside]
    exact List.prefix_append [_] _
  obtain ⟨before, behind, same, wide⟩ := Text.occurs_between (List.cons_ne_nil c []) occurs
  exact ⟨before, c, behind, same, isSigil, wide⟩

/-- What is found lies between two characters, here and ahead, and what is found ahead is there. -/
structure Sound (search : Search) (sought : Sought) (text : List Char) : Prop where
  here : ∃ found, sought.here text = .ok found ∧ ∀ length ∈ found, Text.Between length text
  ahead : ∃ found, sought.ahead search text = .ok found ∧
    ∀ position ∈ found, Text.Between position text
  meets : ∀ before behind, text = before ++ behind →
    sought.ahead search text = .ok (some (Text.width before)) →
      ∃ length, sought.here behind = .ok (some length)

theorem between_blank_width (text : List Char) : Text.Between (Text.blankWidth text) text := by
  obtain ⟨blanks, blank, same⟩ := Text.drop_blank_split text
  have solid := Text.drop_blank_head_solid text
  refine ⟨blanks, Text.dropBlank text, same, ?_⟩
  conv_rhs => rw [same]
  exact (Text.blank_width_of_blanks blank solid).symm

theorem kept_split {chars : List Char} (solid : ∀ c ∈ chars.head?, Text.isBlank c = false)
    (nonempty : chars ≠ []) (blanksBefore : Bool) (front rest : List Char) :
    ∃ blanks : List Char, front = kept blanksBefore front ++ blanks ∧
      strip blanksBefore (blanks ++ (chars ++ rest)) = chars ++ rest := by
  cases blanksBefore with
  | false => exact ⟨[], (List.append_nil _).symm, rfl⟩
  | true =>
      obtain ⟨blanks, blank, same⟩ := Text.trim_end_split front
      obtain ⟨c, more, rfl⟩ := List.exists_cons_of_ne_nil nonempty
      exact ⟨blanks, same, Text.drop_blank_padded blank (by simpa using solid)⟩

theorem sound_literal {search : Search} (finds : search.FindsFirst) {chars : List Char}
    {blanksBefore blanksBehind : Bool} (fits : (literal chars blanksBefore blanksBehind).Fits)
    (text : List Char) : (literal chars blanksBefore blanksBehind).Sound search text := by
  obtain ⟨nonempty, solid⟩ := fits
  refine ⟨⟨_, here_literal _ _ _ text, ?_⟩, ⟨_, ahead_literal finds nonempty _ _ text, ?_⟩, ?_⟩
  · intro length found
    obtain ⟨rest, begins, rfl⟩ := Option.map_eq_some_iff.1 found
    obtain ⟨front, same⟩ := strip_split blanksBefore text
    obtain ⟨lead, behind⟩ := strip_split blanksBehind rest
    have whole : text = (front ++ chars ++ lead) ++ strip blanksBehind rest := by
      rw [List.append_assoc, ← behind, List.append_assoc, ← Text.after_eq_some_iff.1 begins]
      exact same
    refine ⟨_, _, whole, ?_⟩
    conv_rhs => rw [whole]
    rw [Text.width_append (front ++ chars ++ lead)]
    omega
  · intro position found
    obtain ⟨⟨front, rest⟩, cut, rfl⟩ := Option.map_eq_some_iff.1 found
    obtain ⟨blanks, same, _⟩ := kept_split solid nonempty blanksBefore front rest
    refine ⟨_, blanks ++ (chars ++ rest), ?_, rfl⟩
    rw [← List.append_assoc, ← same]
    exact Text.cut_append cut
  · intro before behind whole found
    rw [ahead_literal finds nonempty] at found
    obtain ⟨⟨front, rest⟩, cut, wide⟩ := Option.map_eq_some_iff.1 (Except.ok.inj found)
    obtain ⟨blanks, same, stripped⟩ := kept_split solid nonempty blanksBefore front rest
    have parts : before ++ behind = kept blanksBefore front ++ (blanks ++ (chars ++ rest)) := by
      rw [← List.append_assoc, ← same, ← whole]
      exact Text.cut_append cut
    obtain ⟨-, rfl⟩ := Text.parts_inj parts wide.symm
    rw [here_literal, stripped, Text.after_append_self]
    exact ⟨_, rfl⟩

/-- Whatever fits is sought soundly in every text. -/
theorem sound {search : Search} (finds : search.FindsFirst) {sought : Sought} (fits : sought.Fits)
    (text : List Char) : sought.Sound search text := by
  cases sought with
  | blanks =>
      refine ⟨⟨_, rfl, ?_⟩, ⟨_, rfl, ?_⟩, fun _ _ _ _ => ⟨_, rfl⟩⟩
      · rintro _ ⟨⟩
        exact between_blank_width text
      · rintro _ ⟨⟩
        exact Text.between_of_append [] text
  | sigil =>
      have single (c : Char) (rest : List Char) (isSigil : c ∈ sigils) :
          Text.Between 1 (c :: rest) := by
        have between := Text.between_of_append [c] rest
        rwa [Text.width, Text.width, sigil_size isSigil] at between
      refine ⟨?_, ⟨_, rfl, ?_⟩, ?_⟩
      · cases text with
        | nil => exact ⟨none, rfl, by simp⟩
        | cons c rest =>
            refine ⟨_, here_sigil_cons c rest, ?_⟩
            intro length found
            by_cases isSigil : c ∈ sigils
            · rw [if_pos isSigil] at found
              obtain rfl := Option.some.inj found
              exact single c rest isSigil
            · simp [isSigil] at found
      · intro position found
        have ahead : sigil.ahead search text = .ok (some position) := congrArg Except.ok found
        obtain ⟨before, c, behind, rfl, _, rfl⟩ := ahead_sigil ahead
        exact Text.between_of_append before (c :: behind)
      · intro before behind whole found
        obtain ⟨front, c, rest, same, isSigil, wide⟩ := ahead_sigil found
        obtain ⟨-, rfl⟩ := Text.parts_inj (whole.symm.trans same) wide.symm
        exact ⟨1, by rw [here_sigil_cons, if_pos isSigil]⟩
  | literal chars blanksBefore blanksBehind => exact sound_literal finds fits text

end Sought

/-! ### Moving a cursor -/

/-- A position in a text, with all positions there have been. -/
structure Cursor where
  source : List Char
  position : Nat := 0
  trail : List Nat := [position]
  deriving DecidableEq, Repr

abbrev Scan := StateT Cursor (Except Torn)

namespace Cursor

def place : Scan Nat := return (← get).position

def rest : Scan (List Char) := do
  let cursor ← get
  let (_, rest) ← Text.divide cursor.position cursor.source
  return rest

def atEnd : Scan Bool := do
  let cursor ← get
  return Text.width cursor.source ≤ cursor.position

def advance (bytes : Nat) : Scan (List Char) := do
  let cursor ← get
  let stop := cursor.position + bytes
  let skipped ← Text.part cursor.position stop cursor.source
  set { cursor with position := stop, trail := stop :: cursor.trail }
  return skipped

/-- Moves over what is sought if it stands here. -/
def stepOver (sought : Sought) : Scan (Option (List Char)) := do
  match ← sought.here (← rest) with
  | none => return none
  | some length => return some (← advance length)

/-- Moves up to what is sought, or to the end of the text if that is not found. -/
def goUpTo (search : Search) (sought : Sought) : Scan (List Char) := do
  let rest ← rest
  let found ← sought.ahead search rest
  advance (found.getD (Text.width rest))

/-- The cursor is in the text, with the rest of it ahead, and was always between characters. -/
structure Before (source rest : List Char) (cursor : Cursor) : Prop where
  same : cursor.source = source
  stands : ∃ passed, source = passed ++ rest ∧ cursor.position = Text.width passed
  steady : ∀ place ∈ cursor.trail, Text.Between place source

theorem before_start (source : List Char) : Before source source { source } where
  same := rfl
  stands := ⟨[], rfl, rfl⟩
  steady := List.forall_mem_singleton.2 (Text.between_of_append [] source)

theorem Before.position_eq {source rest : List Char} {cursor : Cursor}
    (before : Before source rest cursor) :
    cursor.position + Text.width rest = Text.width source := by
  obtain ⟨passed, rfl, position⟩ := before.stands
  rw [position, Text.width_append]

end Cursor

/-- With the first rest of the text ahead the scan comes to the value, and leaves the second. -/
def Scan.Leads {α : Type} (source : List Char) (scan : Scan α) (rest : List Char) (value : α)
    (left : List Char) : Prop :=
  ∀ cursor : Cursor, cursor.Before source rest →
    ∃ next, scan.run cursor = .ok (value, next) ∧ next.Before source left

namespace Scan

variable {α β : Type} {source rest left last skipped behind : List Char} {search : Search}

theorem Leads.pure (source rest : List Char) (value : α) :
    Leads source (Pure.pure value) rest value rest :=
  fun cursor before => ⟨cursor, rfl, before⟩

theorem Leads.bind {scan : Scan α} {goesOn : α → Scan β} {value : α} {result : β}
    (first : Leads source scan rest value left)
    (second : Leads source (goesOn value) left result last) :
    Leads source (scan >>= goesOn) rest result last := by
  intro cursor before
  obtain ⟨next, ran, between⟩ := first cursor before
  obtain ⟨final, ranOn, behind⟩ := second next between
  refine ⟨final, ?_, behind⟩
  rw [StateT.run_bind, ran]
  exact ranOn

theorem Leads.lift {made : Except Torn α} {value : α} (madeEq : made = .ok value) :
    Leads source (liftM made) rest value rest := by
  subst madeEq
  exact fun cursor before => ⟨cursor, rfl, before⟩

theorem leads_place :
    Leads source Cursor.place rest (Text.width source - Text.width rest) rest := by
  intro cursor before
  have position := before.position_eq
  refine ⟨cursor, ?_, before⟩
  rw [← position, Nat.add_sub_cancel]
  rfl

theorem leads_at_end (source rest : List Char) :
    Leads source Cursor.atEnd rest (rest = []) rest := by
  intro cursor before
  have position := before.position_eq
  refine ⟨cursor, ?_, before⟩
  have same : decide (Text.width cursor.source ≤ cursor.position) = decide (rest = []) := by
    rw [decide_eq_decide, before.same]
    constructor
    · intro beyond
      by_contra filled
      have wide := Text.width_pos filled
      omega
    · rintro rfl
      exact position.ge
  rw [← same]
  rfl

theorem leads_rest : Leads source Cursor.rest rest rest rest := by
  intro cursor before
  obtain ⟨passed, whole, position⟩ := before.stands
  have divided : Text.divide cursor.position cursor.source = .ok (passed, rest) := by
    rw [before.same, whole, position, Text.divide_append]
  exact ⟨cursor, by simp [Cursor.rest, divided], before⟩

theorem leads_advance :
    Leads source (Cursor.advance (Text.width skipped)) (skipped ++ behind) skipped behind := by
  intro cursor before
  obtain ⟨passed, whole, position⟩ := before.stands
  have cut : Text.part cursor.position (cursor.position + Text.width skipped) cursor.source =
      .ok skipped := by
    rw [before.same, whole, position, Text.part_append]
  have further : source = passed ++ skipped ++ behind := by rw [whole, List.append_assoc]
  have stop : cursor.position + Text.width skipped = Text.width (passed ++ skipped) := by
    rw [position, Text.width_append]
  have between : Text.Between (cursor.position + Text.width skipped) source :=
    ⟨_, _, further, stop.symm⟩
  refine ⟨{ cursor with
      position := cursor.position + Text.width skipped
      trail := (cursor.position + Text.width skipped) :: cursor.trail }, ?_, before.same,
    ⟨_, further, stop⟩, List.forall_mem_cons.2 ⟨between, before.steady⟩⟩
  simp [Cursor.advance, cut]

theorem leads_step_over {sought : Sought}
    (found : sought.here (skipped ++ behind) = .ok (some (Text.width skipped))) :
    Leads source (Cursor.stepOver sought) (skipped ++ behind) (some skipped) behind :=
  leads_rest.bind ((Leads.lift found).bind (leads_advance.bind (.pure _ _ _)))

theorem leads_step_none {sought : Sought} (missing : sought.here rest = .ok none) :
    Leads source (Cursor.stepOver sought) rest none rest :=
  leads_rest.bind ((Leads.lift missing).bind (.pure _ _ _))

theorem leads_go_up_to {sought : Sought}
    (found : sought.ahead search (skipped ++ behind) = .ok (some (Text.width skipped))) :
    Leads source (Cursor.goUpTo search sought) (skipped ++ behind) skipped behind :=
  leads_rest.bind ((Leads.lift found).bind leads_advance)

theorem leads_go_to_end {sought : Sought} (missing : sought.ahead search rest = .ok none) :
    Leads source (Cursor.goUpTo search sought) rest rest [] := by
  have whole : Leads source (Cursor.advance (Text.width rest)) (rest ++ []) rest [] :=
    leads_advance
  rw [List.append_nil] at whole
  exact leads_rest.bind ((Leads.lift missing).bind whole)

/-! ### What a tag is scanned with -/

theorem leads_over_sigil {c : Char} (isSigil : c ∈ sigils) :
    Leads source (Cursor.stepOver .sigil) (c :: rest) (some [c]) rest := by
  have single : Text.width [c] = 1 := by rw [Text.width, Text.width, Sought.sigil_size isSigil]
  have found : Sought.sigil.here ([c] ++ rest) = .ok (some (Text.width [c])) := by
    rw [List.singleton_append, Sought.here_sigil_cons, if_pos isSigil, single]
  exact leads_step_over found

theorem leads_over_no_sigil (unmarked : ∀ c ∈ rest.head?, c ∉ sigils) :
    Leads source (Cursor.stepOver .sigil) rest none rest := by
  refine leads_step_none ?_
  cases rest with
  | nil => rfl
  | cons c rest => rw [Sought.here_sigil_cons, if_neg (unmarked c rfl)]

theorem leads_over_blanks (source rest : List Char) :
    ∃ blanks, Leads source (Cursor.stepOver .blanks) rest blanks (Text.dropBlank rest) := by
  obtain ⟨blanks, blank, same⟩ := Text.drop_blank_split rest
  have wide := Text.blank_width_of_blanks blank (Text.drop_blank_head_solid rest)
  rw [← same] at wide
  have found : Sought.blanks.here (blanks ++ Text.dropBlank rest) =
      .ok (some (Text.width blanks)) := by
    rw [← same, Sought.here, wide]
    rfl
  have passes : Leads source (Cursor.stepOver .blanks) (blanks ++ Text.dropBlank rest)
      (some blanks) (Text.dropBlank rest) := leads_step_over found
  rw [← same] at passes
  exact ⟨some blanks, passes⟩

section

variable {chars front : List Char}

/-- Up to a mark with blanks before it, which are left as they are. -/
theorem leads_up_to_mark (source : List Char) (finds : search.FindsFirst) (nonempty : chars ≠ [])
    (found : Text.cut? chars rest = some (front, behind)) :
    ∃ blanks : Blanks, Leads source (Cursor.goUpTo search (.literal chars true false)) rest
      (Text.trimEnd front) (blanks ++ (chars ++ behind)) := by
  obtain ⟨blanks, blank, same⟩ := Text.trim_end_split front
  have whole : rest = Text.trimEnd front ++ (blanks ++ (chars ++ behind)) := by
    rw [← List.append_assoc, ← same]
    exact Text.cut_append found
  have ahead := Sought.ahead_literal finds nonempty true false rest
  rw [found, whole] at ahead
  refine ⟨⟨blanks, blank⟩, ?_⟩
  rw [whole]
  exact leads_go_up_to ahead

theorem leads_up_to (finds : search.FindsFirst) (nonempty : chars ≠ []) {blanksBehind : Bool}
    (found : Text.cut? chars rest = some (front, behind)) :
    Leads source (Cursor.goUpTo search (.literal chars false blanksBehind)) rest front
      (chars ++ behind) := by
  have whole := Text.cut_append found
  have ahead := Sought.ahead_literal finds nonempty false blanksBehind rest
  rw [found, whole] at ahead
  rw [whole]
  exact leads_go_up_to ahead

theorem leads_to_end (finds : search.FindsFirst) (nonempty : chars ≠ [])
    {blanksBefore blanksBehind : Bool} (missing : Text.cut? chars rest = none) :
    Leads source (Cursor.goUpTo search (.literal chars blanksBefore blanksBehind))
      rest rest [] := by
  refine leads_go_to_end ?_
  rw [Sought.ahead_literal finds nonempty, missing]
  rfl

theorem leads_over_mark (nonempty : chars ≠ [])
    (solid : ∀ c ∈ chars.head?, Text.isBlank c = false) (blanks : Blanks) :
    Leads source (Cursor.stepOver (.literal chars true false)) (blanks ++ (chars ++ rest))
      (some (blanks ++ chars)) rest := by
  obtain ⟨c, more, shape⟩ := List.exists_cons_of_ne_nil nonempty
  have stripped : Text.dropBlank ((blanks : List Char) ++ (chars ++ rest)) = chars ++ rest :=
    Text.drop_blank_padded blanks.2 (by simpa [shape] using solid)
  rw [← List.append_assoc]
  refine leads_step_over ?_
  rw [List.append_assoc, Sought.here_literal, Sought.strip, if_pos rfl, stripped,
    Text.after_append_self, Option.map_some, Sought.strip, if_neg Bool.false_ne_true,
    ← List.append_assoc, Text.width_append, Nat.add_sub_cancel]

/-- Blanks behind what is moved over may belong to it. -/
theorem leads_over_blanks_behind (source chars rest : List Char) :
    ∃ skipped, Leads source (Cursor.stepOver (.literal chars false true)) (chars ++ rest)
      (some skipped) (Text.dropBlank rest) := by
  obtain ⟨blanks, _, same⟩ := Text.drop_blank_split rest
  have whole : chars ++ rest = (chars ++ blanks) ++ Text.dropBlank rest := by
    rw [List.append_assoc, ← same]
  have found : (Sought.literal chars false true).here ((chars ++ blanks) ++ Text.dropBlank rest) =
      .ok (some (Text.width (chars ++ blanks))) := by
    rw [Sought.here_literal, Sought.strip, if_neg Bool.false_ne_true, ← whole,
      Text.after_append_self, Option.map_some, Sought.strip, if_pos rfl, whole,
      Text.width_append (chars ++ blanks), Nat.add_sub_cancel]
  rw [whole]
  exact ⟨_, leads_step_over found⟩

/-- At the end of the text there is nothing to move over. -/
theorem leads_over_nothing (nonempty : chars ≠ []) {blanksBefore blanksBehind : Bool} :
    Leads source (Cursor.stepOver (.literal chars blanksBefore blanksBehind)) [] none [] := by
  refine leads_step_none ?_
  obtain ⟨c, more, rfl⟩ := List.exists_cons_of_ne_nil nonempty
  rw [Sought.here_literal]
  cases blanksBefore <;> rfl

end

end Scan

end Mustache

import Mustache.Proofs.TextLines

/-!
The lines that are shown with an error. A template that does not compile is reported with the
failing line between its neighbours, up to three on either side, each under its number. There is
one place where no line is: behind the line feed that ends a template, where a tag that is never
closed is reported. Then no line is shown at all.
-/

namespace Mustache

namespace Error

/-- Of numbered lines those no further than three from the number. -/
def nearLines (number : Nat) (entries : List (List Char × Nat)) : List (List Char × Nat) :=
  entries.filter fun entry => entry.2 ≤ number + 3 ∧ number ≤ entry.2 + 3

def window (lines : List (List Char)) (number : Nat) : List (List Char × Nat) :=
  nearLines number (lines.zipIdx 1)

def windowLine (number : Nat) (entry : List Char × Nat) : String :=
  excerptLine (if entry.2 = number then ">" else "|") entry.2 entry.1

theorem neighbour_lines_eq (number : Nat) (lines : List (List Char)) :
    neighbourLines number lines =
      String.join ((lines.zipIdx number).map fun entry => excerptLine "|" entry.2 entry.1) := by
  induction lines generalizing number with
  | nil => rfl
  | cons line rest ih =>
      rw [neighbourLines, ih, List.zipIdx_cons, List.map_cons, String.join_cons]

theorem near_lines_append (number : Nat) (entries others : List (List Char × Nat)) :
    nearLines number (entries ++ others) = nearLines number entries ++ nearLines number others :=
  List.filter_append ..

theorem near_lines_of_near {lines : List (List Char)} {first number : Nat}
    (below : first + lines.length ≤ number + 4) (above : number ≤ first + 3) :
    nearLines number (lines.zipIdx first) = lines.zipIdx first := by
  apply List.filter_eq_self.2
  intro entry among
  have least := List.le_snd_of_mem_zipIdx among
  have greatest := List.snd_lt_add_of_mem_zipIdx among
  simp only [decide_eq_true_eq]
  omega

theorem near_lines_of_far {lines : List (List Char)} {first number : Nat}
    (far : first + lines.length + 3 ≤ number ∨ number + 3 < first) :
    nearLines number (lines.zipIdx first) = [] := by
  apply List.filter_eq_nil_iff.2
  intro entry among
  have least := List.le_snd_of_mem_zipIdx among
  have greatest := List.snd_lt_add_of_mem_zipIdx among
  simp only [decide_eq_true_eq]
  omega

theorem window_of_parts {far near after beyond : List (List Char)} {line : List Char}
    {number : Nat} (here : far.length + near.length + 1 = number) (nearEnough : near.length ≤ 3)
    (farEnough : far = [] ∨ near.length = 3) (afterNear : after.length ≤ 3)
    (beyondFar : beyond = [] ∨ after.length = 3) :
    window (far ++ (near ++ line :: (after ++ beyond))) number =
      near.zipIdx (far.length + 1) ++ (line, number) :: after.zipIdx (number + 1) := by
  have dropped : nearLines number (far.zipIdx 1) = [] := by
    rcases farEnough with rfl | full
    · rfl
    · exact near_lines_of_far (.inl (by omega))
  have droppedBehind : nearLines number (beyond.zipIdx (number + 1 + after.length)) = [] := by
    rcases beyondFar with rfl | full
    · rfl
    · exact near_lines_of_far (.inr (by omega))
  have kept : nearLines number (near.zipIdx (far.length + 1)) = near.zipIdx (far.length + 1) :=
    near_lines_of_near (by omega) (by omega)
  have keptLine : nearLines number ([line].zipIdx number) = [(line, number)] :=
    near_lines_of_near (by simp) (by simp)
  have keptBehind : nearLines number (after.zipIdx (number + 1)) = after.zipIdx (number + 1) :=
    near_lines_of_near (by omega) (by omega)
  have numbered : 1 + far.length + near.length = number := by omega
  rw [window, ← List.singleton_append, List.zipIdx_append, List.zipIdx_append, numbered,
    List.zipIdx_append, List.zipIdx_append, List.length_singleton, Nat.add_comm 1,
    near_lines_append, near_lines_append, near_lines_append, near_lines_append, dropped, kept,
    keptLine, keptBehind, droppedBehind, List.nil_append, List.append_nil,
    List.singleton_append]

/-- The lines before and after a line that belong to its window. -/
def linesBefore (lines : List (List Char)) (index : Nat) : List (List Char × Nat) :=
  ((lines.take index).drop (index - 3)).zipIdx (index - 3 + 1)

def linesAfter (lines : List (List Char)) (index : Nat) : List (List Char × Nat) :=
  ((lines.drop (index + 1)).take 3).zipIdx (index + 1 + 1)

section Parts

variable {lines : List (List Char)} {index : Nat} {line : List Char}

theorem window_parts (found : lines[index]? = some line) :
    window lines (index + 1) =
      linesBefore lines index ++ (line, index + 1) :: linesAfter lines index := by
  obtain ⟨inside, same⟩ := List.getElem?_eq_some_iff.1 found
  have split : lines = (lines.take index).take (index - 3) ++
      ((lines.take index).drop (index - 3) ++
        line :: ((lines.drop (index + 1)).take 3 ++ (lines.drop (index + 1)).drop 3)) := by
    rw [List.take_append_drop, ← List.append_assoc, List.take_append_drop, ← same,
      ← List.drop_eq_getElem_cons, List.take_append_drop]
  have farLength : ((lines.take index).take (index - 3)).length = index - 3 := by
    simp only [List.length_take]
    omega
  have nearLength : ((lines.take index).drop (index - 3)).length = index - (index - 3) := by
    simp only [List.length_drop, List.length_take]
    omega
  have nothingFar :
      (lines.take index).take (index - 3) = [] ∨
        ((lines.take index).drop (index - 3)).length = 3 := by
    rw [List.eq_nil_iff_length_eq_zero, farLength, nearLength]
    omega
  have nothingBeyond :
      (lines.drop (index + 1)).drop 3 = [] ∨ ((lines.drop (index + 1)).take 3).length = 3 := by
    rw [List.eq_nil_iff_length_eq_zero, List.length_drop, List.length_take]
    omega
  have here : ((lines.take index).take (index - 3)).length +
      ((lines.take index).drop (index - 3)).length + 1 = index + 1 := by omega
  have parts : window (_ ++ (_ ++ line :: (_ ++ _))) (index + 1) = _ :=
    window_of_parts here (by omega) nothingFar (List.length_take_le 3 _) nothingBeyond
  rwa [← split, farLength] at parts

theorem lt_of_mem_lines_before {entry : List Char × Nat}
    (among : entry ∈ linesBefore lines index) : entry.2 < index + 1 := by
  have greatest := List.snd_lt_add_of_mem_zipIdx among
  simp only [List.length_drop, List.length_take] at greatest
  omega

theorem lt_of_mem_lines_after {entry : List Char × Nat}
    (among : entry ∈ linesAfter lines index) : index + 1 < entry.2 :=
  List.le_snd_of_mem_zipIdx among

theorem map_neighbours {entries : List (List Char × Nat)} {number : Nat}
    (apart : ∀ entry ∈ entries, entry.2 ≠ number) :
    entries.map (windowLine number) = entries.map fun entry => excerptLine "|" entry.2 entry.1 := by
  apply List.map_congr_left
  intro entry among
  rw [windowLine, if_neg (apart entry among)]

/-- The lines put out for an excerpt are those of the window. -/
theorem excerpt_eq_window (found : lines[index]? = some line) :
    excerpt lines (index + 1) =
      String.join ((window lines (index + 1)).map (windowLine (index + 1))) := by
  have before : (linesBefore lines index).map (windowLine (index + 1)) = _ :=
    map_neighbours fun entry among => (lt_of_mem_lines_before among).ne
  have after : (linesAfter lines index).map (windowLine (index + 1)) = _ :=
    map_neighbours fun entry among => (lt_of_mem_lines_after among).ne'
  rw [window_parts found, List.map_append, List.map_cons, before, after, String.join_append,
    String.join_cons, windowLine, if_pos rfl]
  simp only [excerpt, Nat.add_sub_cancel, found, neighbour_lines_eq, linesBefore, linesAfter,
    String.append_assoc]

theorem window_marks_one (found : lines[index]? = some line) :
    ((window lines (index + 1)).filter fun entry => entry.2 = index + 1) =
      [(line, index + 1)] := by
  have before : ((linesBefore lines index).filter fun entry => entry.2 = index + 1) = [] := by
    apply List.filter_eq_nil_iff.2
    intro entry among
    simpa using (lt_of_mem_lines_before among).ne
  have after : ((linesAfter lines index).filter fun entry => entry.2 = index + 1) = [] := by
    apply List.filter_eq_nil_iff.2
    intro entry among
    simpa using (lt_of_mem_lines_after among).ne'
  rw [window_parts found, List.filter_append, List.filter_cons_of_pos (by simp), before, after,
    List.nil_append]

end Parts

theorem mem_window_iff {text : List Char} {number : Nat} {entry : List Char × Nat} :
    entry ∈ window (Text.lines text) number ↔
      Text.IsLine text entry.2 entry.1 ∧ entry.2 ≤ number + 3 ∧ number ≤ entry.2 + 3 := by
  have numbered : entry ∈ (Text.lines text).zipIdx 1 ↔ Text.IsLine text entry.2 entry.1 := by
    rw [List.mem_zipIdx_iff_le_and_getElem?_sub, Text.lines_get_iff]
    constructor
    · rintro ⟨positive, isLine⟩
      rwa [Nat.sub_add_cancel positive] at isLine
    · intro isLine
      have positive := Text.pos_of_is_line isLine
      rw [Nat.sub_add_cancel positive]
      exact ⟨positive, isLine⟩
  rw [window, nearLines, List.mem_filter, numbered, decide_eq_true_eq]

theorem window_ascending (lines : List (List Char)) (number : Nat) :
    (window lines number).Pairwise fun entry other => entry.2 < other.2 := by
  have numbers : ((lines.zipIdx 1).map Prod.snd).Pairwise (· < ·) := by
    rw [List.zipIdx_map_snd]
    exact List.pairwise_lt_range'
  exact (List.pairwise_map.1 numbers).filter _

end Error

/-! ### The place of a fault -/

theorem Place.Holds.width_pos {place : Place} {tag : Tag} (holds : place.Holds tag) :
    0 < Text.width place.text := by
  obtain ⟨c, rest, _, whole, _⟩ := holds.opens
  exact Text.width_pos (whole ▸ List.cons_ne_nil c rest)

/-- The tags that are read stand before the end of the text. -/
theorem Place.Reaches.first_lt {first last : Place} {tags : List Token}
    (reaches : first.Reaches tags last) :
    ∀ token ∈ tags, token.span.first < first.offset + Text.width first.text := by
  induction reaches with
  | here place => simp
  | char _ _ ih =>
      intro token among
      have earlier := ih token among
      simp only [Text.width] at earlier ⊢
      omega
  | @tag place last tag after tags holds force _ ih =>
      have sameEnd := (Place.Reaches.tag holds force (.here _)).width
      rw [← sameEnd]
      refine List.forall_mem_cons.2 ⟨?_, ih⟩
      rw [sameEnd]
      exact Nat.lt_add_of_pos_right holds.width_pos

theorem LeavesOpen.opened_by {tags : List Token} {opened : List OpenSection}
    (leaves : LeavesOpen tags opened) :
    ∀ one ∈ opened, ∃ token ∈ tags, token.span.first = one.offset := by
  induction leaves with
  | none => simp
  | @within before inside opened token _ _ _ _ ih =>
      refine List.forall_mem_cons.2 ⟨⟨token, by simp, rfl⟩, ?_⟩
      intro one among
      obtain ⟨opening, before, same⟩ := ih one among
      exact ⟨opening, by simp [before], same⟩

theorem Token.Breaks.offset_eq {token : Token} {opened : List OpenSection} {located : Located}
    (breaks : token.Breaks opened located) :
    located.offset = token.span.first ∧ located.fault.kind ≠ .unclosedTag := by
  cases breaks <;> exact ⟨rfl, by simp [Fault.kind]⟩

theorem Delimiters.Unnamed.kind_ne {text : List Char} {fault : Fault}
    (unnamed : Delimiters.Unnamed text fault) : fault.kind ≠ .unclosedTag := by
  cases unnamed <;> simp [Fault.kind]

/-- A tag that is never closed is reported at the end of the text, everything else before it. -/
theorem FirstFault.place {delimiters : Delimiters} {text : List Char} {located : Located}
    (fault : FirstFault delimiters text located) :
    located.fault.kind = .unclosedTag ∧ located.offset = Text.width text ∨
      located.fault.kind ≠ .unclosedTag ∧ located.offset < Text.width text := by
  cases fault with
  | stopped reaches _ stops =>
      have whole := reaches.width
      simp only [Place.start] at whole
      cases stops with
      | unclosed => exact .inl ⟨rfl, by simp only [whole]; omega⟩
      | unfit holds _ unnamed =>
          have room := holds.width_pos
          refine .inr ⟨?_, by simp only; omega⟩
          exact unnamed.kind_ne
  | broken reaches _ holds breaks =>
      obtain ⟨same, other⟩ := breaks.offset_eq
      have whole := reaches.width
      have room := holds.width_pos
      simp only [Place.start] at whole
      refine .inr ⟨other, ?_⟩
      simp only [same, Place.token]
      omega
  | unclosed reaches _ leaves =>
      obtain ⟨token, among, same⟩ := leaves.opened_by _ (List.mem_cons_self ..)
      have earlier := reaches.first_lt token among
      simp only [Place.start] at earlier
      exact .inr ⟨by simp [Fault.kind], by simp only [← same]; omega⟩

namespace Error

/-- An error at a place of a template, with the lines below. -/
def reportWith (error : Error) (shown : List String) : String :=
  error.message ++ "\n" ++ dashes 28 ++ " Template Source " ++ dashes 29 ++ "\n" ++
    String.join shown ++ dashes 74

/-- The lines shown are the line of the number and those no further than three from it, each
once and in order, and the line of the number is the one that is marked. -/
structure ShowsLine (text : List Char) (number : Nat) (shown : List (List Char × Nat)) : Prop where
  marked : ∃ line, Text.IsLine text number line ∧
    (shown.filter fun entry => entry.2 = number) = [(line, number)]
  near : ∀ entry, entry ∈ shown ↔
    Text.IsLine text entry.2 entry.1 ∧ entry.2 ≤ number + 3 ∧ number ≤ entry.2 + 3
  ascending : shown.Pairwise fun entry other => entry.2 < other.2

/-- A tag is never closed, and a line feed ends the text. -/
def BehindLines (text : List Char) (error : Error) : Prop :=
  error.kind = .unclosedTag ∧ Text.EndsLine text

theorem excerpt_of_inside {text : List Char} {number : Nat} (positive : 0 < number)
    (inside : number ≤ (Text.lines text).length) :
    excerpt (Text.lines text) number =
        String.join ((window (Text.lines text) number).map (windowLine number)) ∧
      ShowsLine text number (window (Text.lines text) number) := by
  obtain ⟨index, rfl⟩ := Nat.exists_eq_succ_of_ne_zero positive.ne'
  have found := List.getElem?_eq_getElem inside
  refine ⟨excerpt_eq_window found, ⟨_, Text.lines_get_iff.1 found, window_marks_one found⟩, ?_,
    window_ascending _ _⟩
  exact fun entry => mem_window_iff

theorem excerpt_of_outside {lines : List (List Char)} {number : Nat}
    (outside : lines.length < number) : excerpt lines number = "" := by
  have absent : lines[number - 1]? = none := List.getElem?_eq_none (by omega)
  rw [excerpt, absent]

end Error

/-- Why a template has no tree. -/
theorem Node.first_fault_of_source {delimiters : Delimiters} {source : String} {error : Error}
    (failed : Node.ofSource delimiters source = .error error) :
    ∃ located, FirstFault delimiters source.toList located ∧
      error = located.toError source.toList := by
  cases made : Token.ofSource delimiters source with
  | ok tokens =>
      -- tokens always nest, so it is not the tree that failed
      have whole := Token.of_source_eq_ok_iff.1 made
      obtain ⟨nodes, nested, _⟩ :=
        Node.nest_from_lists .nil (Token.balanced_of_text whole) (Node.Shallow.nil _)
      simp only [Node.ofSource, made, Node.nest, nested, Except.mapError] at failed
      contradiction
  | error other =>
      have same : other = error := by
        simpa only [Node.ofSource, made, Except.error.injEq] using failed
      cases read : Token.ofText delimiters source.toList with
      | ok tokens =>
          simp only [Token.ofSource, read] at made
          contradiction
      | error located =>
          simp only [Token.ofSource, read, Except.mapError, Except.error.injEq] at made
          exact ⟨located, Token.first_fault_of_text read, (made.trans same).symm⟩

/-- The error of a template that does not compile is shown with the line it is on, marked, between
the three lines before it and the three behind it, as far as there are lines, each under its
number. Only behind the line feed that ends a template is there no line to show: a tag that is
never closed is reported there, and nothing stands between the head and the foot. -/
theorem failing_line_is_shown (delimiters : Delimiters) (source : String) {error : Error}
    (failed : Node.ofSource delimiters source = .error error) :
    ∃ location shown, error.location = some location ∧
      error.report = error.reportWith (shown.map (Error.windowLine location.line)) ∧
      (error.BehindLines source.toList ∧ shown = [] ∨
        ¬ error.BehindLines source.toList ∧
          Error.ShowsLine source.toList location.line shown) := by
  obtain ⟨located, fault, rfl⟩ := Node.first_fault_of_source failed
  have report (shown : List String)
      (made : Error.excerpt (Text.lines source.toList)
        (Text.lineAt located.offset source.toList) = String.join shown) :
      (located.toError source.toList).report =
        (located.toError source.toList).reportWith shown := by
    simp [Error.report, Error.reportWith, Located.toError, Error.located, Location.ofOffset,
      made]
  refine ⟨Location.ofOffset source.toList located.offset, ?_⟩
  by_cases behind : (located.toError source.toList).BehindLines source.toList
  · obtain ⟨unclosed, ends⟩ := behind
    have endReached : located.offset = Text.width source.toList := by
      rcases fault.place with ⟨_, endReached⟩ | ⟨other, _⟩
      · exact endReached
      · exact absurd unclosed other
    have outside : (Text.lines source.toList).length <
        Text.lineAt located.offset source.toList := by
      rw [Text.length_lines_of_ends ends, endReached, Text.lineAt, Text.line_feeds_before_end]
      exact Nat.lt_succ_self _
    exact ⟨[], rfl, report [] (Error.excerpt_of_outside outside), .inl ⟨⟨unclosed, ends⟩, rfl⟩⟩
  · have inside : Text.lineAt located.offset source.toList ≤
        (Text.lines source.toList).length := by
      rcases fault.place with ⟨unclosed, endReached⟩ | ⟨_, before⟩
      · have goesOn : ¬ Text.EndsLine source.toList := fun ends => behind ⟨unclosed, ends⟩
        rw [Text.length_lines_of_open goesOn, endReached, Text.lineAt, Text.line_feeds_before_end]
      · exact Text.line_at_le_of_lt before
    obtain ⟨made, shows⟩ := Error.excerpt_of_inside (Nat.succ_pos _) inside
    exact ⟨_, rfl, report _ made, .inr ⟨behind, shows⟩⟩

/-- Carriage returns are no part of the lines, and the section stands on the third of four. -/
theorem unclosed_section_is_shown :
    let source := "one\r\ntwo\r\n\x7b\x7b#three\x7d\x7d\nfour"
    let error : Error :=
      { kind := .unclosedSection, detail := some "section \x60three\x60 is never closed",
        location := some ⟨10, 3⟩, template := some source }
    Node.ofSource .braces source = .error error ∧
      ∃ location shown, error.location = some location ∧
        error.report = error.reportWith (shown.map (Error.windowLine location.line)) ∧
        (error.BehindLines source.toList ∧ shown = [] ∨
          ¬ error.BehindLines source.toList ∧
            Error.ShowsLine source.toList location.line shown) := by
  intro source error
  have failed : Node.ofSource .braces source = .error error := by cbv
  exact ⟨failed, failing_line_is_shown .braces source failed⟩

/-- The tag is said to be open on the second line, and no line is marked, or shown at all. -/
theorem tag_open_behind_last_line_is_not_shown :
    let source := "\x7b\x7ba\n"
    let error : Error :=
      { kind := .unclosedTag, detail := some "expected \x60\x7d\x7d\x60 to close the tag",
        location := some ⟨4, 2⟩, template := some source }
    Node.ofSource .braces source = .error error ∧ '>' ∉ error.report.toList ∧
      error.report = error.reportWith [] := by
  intro source error
  have failed : Node.ofSource .braces source = .error error := by cbv
  have beyond : (Text.lines source.toList).length < 2 := by decide
  have nothing : error.report = error.reportWith [] := by
    simp only [Error.report, Error.reportWith, error, Option.map_some, Option.getD_some,
      Error.excerpt_of_outside beyond]
    rfl
  have wording : '>' ∉ error.message.toList := by decide +kernel
  refine ⟨failed, ?_, nothing⟩
  rw [nothing]
  simp [Error.reportWith, Error.dashes, String.join, wording]

end Mustache

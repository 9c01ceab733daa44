import Mustache.Proofs.LastingFaults
import Mustache.Proofs.LineComposition

/-!
The lines of a text. They are cut behind line feeds, each piece without its feed and without a
carriage return right before that. A position within the text is on one of them; the end of the
text is on none if a line feed stands last.
-/

namespace Mustache

namespace Text

/-- The characters are the line of that number: what stands behind the line feeds before it, up to
the next line feed or the end. A carriage return right before a line feed belongs to neither line,
and behind the last line feed there is a line only if there is a character. -/
def IsLine (text : List Char) (number : Nat) (line : List Char) : Prop :=
  ∃ before ending behind, text = before ++ line ++ (ending ++ behind) ∧ EndsLine before ∧
    before.count '\n' + 1 = number ∧ '\n' ∉ line ∧
    (ending = ['\n'] ∧ line.getLast? ≠ some '\r' ∨ ending = ['\r', '\n'] ∨
      ending ++ behind = [] ∧ line ≠ [])

/-- A text is a last piece without a line feed, or a piece, a line feed and a text. -/
@[elab_as_elim]
theorem line_induction {motive : List Char → Prop}
    (last : ∀ piece, '\n' ∉ piece → motive piece)
    (feed : ∀ piece rest, '\n' ∉ piece → motive rest → motive (piece ++ '\n' :: rest))
    (text : List Char) : motive text := by
  induction shape : text.length using Nat.strongRecOn generalizing text with
  | ind length ih =>
      by_cases broken : '\n' ∈ text
      · obtain ⟨piece, rest, rfl, unbroken⟩ := List.eq_append_cons_of_mem broken
        apply feed piece rest unbroken
        apply ih rest.length _ rest rfl
        rw [← shape, List.length_append, List.length_cons]
        omega
      · exact last text broken

theorem drop_return_cases (piece : List Char) :
    dropReturn piece = piece ∧ piece.getLast? ≠ some '\r' ∨ piece = dropReturn piece ++ ['\r'] := by
  fun_induction dropReturn piece with
  | case1 => exact .inl ⟨rfl, by simp⟩
  | case2 => exact .inr rfl
  | case3 c rest alone ih =>
      rcases ih with ⟨same, other⟩ | ended
      · refine .inl ⟨by rw [same], ?_⟩
        cases rest with
        | nil => simpa using fun returns => alone returns rfl
        | cons next behind => rwa [List.getLast?_cons_cons]
      · exact .inr (congrArg (c :: ·) ended)

theorem drop_return_append (line : List Char) : dropReturn (line ++ ['\r']) = line := by
  induction line with
  | nil => rfl
  | cons c rest ih =>
      rw [List.cons_append, dropReturn, ih]
      simp

theorem lines_from_unbroken (current : List Char) {piece : List Char} (unbroken : '\n' ∉ piece) :
    linesFrom current piece =
      if current.reverse ++ piece = [] then [] else [current.reverse ++ piece] := by
  induction piece generalizing current with
  | nil => simp [linesFrom]
  | cons c rest ih =>
      obtain ⟨other, below⟩ := not_or.1 (List.mem_cons.not.1 unbroken)
      rw [linesFrom, if_neg (Ne.symm other), ih _ below]
      simp

theorem lines_from_feed (current : List Char) {piece : List Char} (unbroken : '\n' ∉ piece)
    (rest : List Char) :
    linesFrom current (piece ++ '\n' :: rest) =
      dropReturn (current.reverse ++ piece) :: lines rest := by
  induction piece generalizing current with
  | nil => simp [linesFrom, lines]
  | cons c others ih =>
      obtain ⟨other, below⟩ := not_or.1 (List.mem_cons.not.1 unbroken)
      rw [List.cons_append, linesFrom, if_neg (Ne.symm other), ih _ below]
      simp

theorem lines_unbroken {piece : List Char} (unbroken : '\n' ∉ piece) :
    lines piece = if piece = [] then [] else [piece] :=
  lines_from_unbroken [] unbroken

theorem lines_feed {piece : List Char} (unbroken : '\n' ∉ piece) (rest : List Char) :
    lines (piece ++ '\n' :: rest) = dropReturn piece :: lines rest :=
  lines_from_feed [] unbroken rest

theorem ends_line_of_unbroken {piece : List Char} (ends : EndsLine piece)
    (unbroken : '\n' ∉ piece) : piece = [] := by
  rcases ends with empty | ⟨body, rfl⟩
  · exact empty
  · simp at unbroken

/-- What stands up to the first line feed, and what stands behind it, is determined. -/
theorem feed_inj {piece other rest behind : List Char} (unbroken : '\n' ∉ piece)
    (otherUnbroken : '\n' ∉ other) (same : piece ++ '\n' :: rest = other ++ '\n' :: behind) :
    piece = other ∧ rest = behind := by
  rcases List.append_eq_append_iff.1 same with ⟨between, rfl, later⟩ | ⟨between, rfl, later⟩
  · cases between with
    | nil => simpa using later
    | cons c between =>
        obtain ⟨rfl, _⟩ := List.cons.inj later
        simp at otherUnbroken
  · cases between with
    | nil => simpa [eq_comm] using later
    | cons c between =>
        obtain ⟨rfl, _⟩ := List.cons.inj later
        simp at unbroken

theorem ends_line_feed_iff {piece rest : List Char} :
    EndsLine (piece ++ '\n' :: rest) ↔ EndsLine rest := by
  constructor
  · exact ends_line_suffix ⟨piece ++ ['\n'], by simp⟩
  · rintro (rfl | ⟨body, rfl⟩)
    · exact .inr ⟨piece, rfl⟩
    · exact .inr ⟨piece ++ '\n' :: body, by simp⟩

theorem is_line_unbroken_iff {piece : List Char} (unbroken : '\n' ∉ piece) {number : Nat}
    {line : List Char} : IsLine piece number line ↔ number = 1 ∧ line = piece ∧ piece ≠ [] := by
  constructor
  · rintro ⟨before, ending, behind, rfl, ends, counted, whole, ended⟩
    simp only [List.mem_append, not_or] at unbroken
    obtain ⟨⟨beforeUnbroken, _⟩, endingUnbroken, _⟩ := unbroken
    obtain rfl := ends_line_of_unbroken ends beforeUnbroken
    rcases ended with ⟨rfl, _⟩ | rfl | ⟨nothing, nonempty⟩
    · simp at endingUnbroken
    · simp at endingUnbroken
    · simp [nothing, nonempty, ← counted]
  · rintro ⟨rfl, rfl, nonempty⟩
    exact ⟨[], [], [], by simp, .inl rfl, rfl, unbroken, .inr (.inr ⟨rfl, nonempty⟩)⟩

/-- Behind a first line the lines are those of the rest, each under the next number. -/
theorem is_line_feed_iff {piece : List Char} (unbroken : '\n' ∉ piece) {rest : List Char}
    {number : Nat} {line : List Char} :
    IsLine (piece ++ '\n' :: rest) number line ↔
      number = 1 ∧ line = dropReturn piece ∨
        ∃ other, number = other + 1 ∧ IsLine rest other line := by
  constructor
  · rintro ⟨before, ending, behind, same, ends, counted, whole, ended⟩
    rcases ends with rfl | ⟨body, rfl⟩
    · refine .inl ⟨counted.symm, ?_⟩
      rw [List.nil_append] at same
      rcases ended with ⟨rfl, apart⟩ | rfl | ⟨nothing, _⟩
      · obtain ⟨rfl, _⟩ := feed_inj unbroken whole same
        rcases drop_return_cases piece with ⟨kept, _⟩ | returned
        · exact kept.symm
        · rw [returned, List.getLast?_append] at apart
          simp at apart
      · have longer : '\n' ∉ line ++ ['\r'] := by simpa using whole
        have split : piece ++ '\n' :: rest = (line ++ ['\r']) ++ '\n' :: behind := by
          simpa using same
        obtain ⟨rfl, _⟩ := feed_inj unbroken longer split
        exact (drop_return_append line).symm
      · rw [nothing, List.append_nil] at same
        simp [← same] at whole
    · -- the first line feed is among those before the line
      have later : ∃ earlier, body ++ ['\n'] = piece ++ '\n' :: earlier ∧
          rest = earlier ++ line ++ (ending ++ behind) := by
        have split : piece ++ '\n' :: rest = body ++ '\n' :: (line ++ (ending ++ behind)) := by
          simpa using same
        rcases List.append_eq_append_iff.1 split with ⟨between, rfl, later⟩ | ⟨between, rfl, later⟩
        · cases between with
          | nil => exact ⟨[], by simp, by simpa using later⟩
          | cons c between =>
              obtain ⟨rfl, rfl⟩ := List.cons.inj later
              exact ⟨between ++ ['\n'], by simp, by simp⟩
        · cases between with
          | nil => exact ⟨[], by simp, by simpa [eq_comm] using later⟩
          | cons c between =>
              obtain ⟨rfl, _⟩ := List.cons.inj later
              simp at unbroken
      obtain ⟨earlier, shape, split⟩ := later
      have ends : EndsLine (piece ++ '\n' :: earlier) := by
        rw [← shape]
        exact .inr ⟨body, rfl⟩
      refine .inr ⟨earlier.count '\n' + 1, ?_, earlier, ending, behind, split,
        ends_line_feed_iff.1 ends, rfl, whole, ended⟩
      rw [← counted, shape, List.count_append, List.count_cons_self,
        List.count_eq_zero_of_not_mem unbroken]
      omega
  · rintro (⟨rfl, rfl⟩ | ⟨other, rfl, before, ending, behind, rfl, ends, counted, whole, ended⟩)
    · rcases drop_return_cases piece with ⟨kept, apart⟩ | returned
      · refine ⟨[], ['\n'], rest, ?_, .inl rfl, rfl, ?_, .inl ⟨rfl, ?_⟩⟩
        · rw [kept]
          rfl
        · rwa [kept]
        · rwa [kept]
      · refine ⟨[], ['\r', '\n'], rest, ?_, .inl rfl, rfl, ?_, .inr (.inl rfl)⟩
        · nth_rewrite 1 [returned]
          simp
        · rw [returned] at unbroken
          simp only [List.mem_append, not_or] at unbroken
          exact unbroken.1
    · refine ⟨piece ++ '\n' :: before, ending, behind, by simp, ends_line_feed_iff.2 ends, ?_,
        whole, ended⟩
      rw [← counted, List.count_append, List.count_cons_self,
        List.count_eq_zero_of_not_mem unbroken]
      omega

theorem pos_of_is_line {text line : List Char} {number : Nat} (isLine : IsLine text number line) :
    0 < number := by
  obtain ⟨_, _, _, _, _, rfl, _⟩ := isLine
  exact Nat.succ_pos _

/-- The lines are the lines, each at its number. -/
theorem lines_get_iff {text : List Char} {index : Nat} {line : List Char} :
    (lines text)[index]? = some line ↔ IsLine text (index + 1) line := by
  induction text using line_induction generalizing index with
  | last piece unbroken =>
      rw [lines_unbroken unbroken, is_line_unbroken_iff unbroken]
      split
      next empty => simp [empty]
      next nonempty => cases index <;> simp [nonempty, eq_comm]
  | feed piece rest unbroken ih =>
      rw [lines_feed unbroken, is_line_feed_iff unbroken]
      cases index with
      | zero =>
          have noneBefore : ¬ IsLine rest 0 line := fun isLine => (pos_of_is_line isLine).ne rfl
          simp [noneBefore, eq_comm]
      | succ index => simp [ih]

theorem count_feed {piece : List Char} (unbroken : '\n' ∉ piece) (rest : List Char) :
    (piece ++ '\n' :: rest).count '\n' = rest.count '\n' + 1 := by
  rw [List.count_append, List.count_cons_self, List.count_eq_zero_of_not_mem unbroken,
    Nat.zero_add]

theorem length_lines_of_ends {text : List Char} (ends : EndsLine text) :
    (lines text).length = text.count '\n' := by
  induction text using line_induction with
  | last piece unbroken =>
      obtain rfl := ends_line_of_unbroken ends unbroken
      rfl
  | feed piece rest unbroken ih =>
      rw [lines_feed unbroken, List.length_cons, count_feed unbroken,
        ih (ends_line_feed_iff.1 ends)]

theorem length_lines_of_open {text : List Char} (goesOn : ¬ EndsLine text) :
    (lines text).length = text.count '\n' + 1 := by
  induction text using line_induction with
  | last piece unbroken =>
      have nonempty : piece ≠ [] := fun empty => goesOn (.inl empty)
      rw [lines_unbroken unbroken, if_neg nonempty, List.count_eq_zero_of_not_mem unbroken]
      rfl
  | feed piece rest unbroken ih =>
      rw [lines_feed unbroken, List.length_cons, count_feed unbroken,
        ih (ends_line_feed_iff.not.1 goesOn)]

theorem line_feeds_before_end (text : List Char) :
    lineFeedsBefore (width text) text = text.count '\n' := by
  simpa [lineFeedsBefore] using line_feeds_before_append text [] 0

theorem line_feeds_before_le (position : Nat) (text : List Char) :
    lineFeedsBefore position text ≤ text.count '\n' := by
  induction text generalizing position with
  | nil => simp [lineFeedsBefore]
  | cons c rest ih =>
      have := ih (position - c.utf8Size)
      rw [lineFeedsBefore, List.count_cons]
      split
      · omega
      · simp only [beq_iff_eq]
        omega

/-- A position before the end of a text is on one of its lines. -/
theorem line_at_le_of_lt {position : Nat} {text : List Char} (inside : position < width text) :
    lineAt position text ≤ (lines text).length := by
  by_cases ends : EndsLine text
  · rcases ends with rfl | ⟨body, rfl⟩
    · simp [width] at inside
    · have before : position ≤ width body := by
        rw [width_append, width, width] at inside
        have single : '\n'.utf8Size = 1 := rfl
        omega
      rw [lineAt, length_lines_of_ends (.inr ⟨body, rfl⟩), line_feeds_before_inside before,
        List.count_append]
      exact Nat.succ_le_succ (line_feeds_before_le position body)
  · rw [lineAt, length_lines_of_open ends]
    exact Nat.succ_le_succ (line_feeds_before_le position text)

end Text

end Mustache

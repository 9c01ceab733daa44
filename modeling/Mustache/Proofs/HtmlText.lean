import Mathlib
import Mustache.Escape

/-!
Text that makes no markup. Escaping for HTML writes an entity for each of five characters and
leaves the others as they are, wherever its pieces are cut. So what it writes makes no markup; and
texts that make none make none when one is written behind the other.
-/

namespace Mustache.Escape

/-- The characters that can make markup. -/
def marks : List Char := ['&', '<', '>', '\x22', '\x27']

def entities : List String := ["&amp;", "&lt;", "&gt;", "&quot;", "&#39;"]

/-- No markup: none of the characters that open or close tags and attributes, and an ampersand
only where it begins an entity. -/
structure Inert (text : List Char) : Prop where
  unmarked : ∀ c ∈ text, c ∉ ['<', '>', '\x22', '\x27']
  references : ∀ before behind, text = before ++ '&' :: behind →
    ∃ entity ∈ entities, entity.toList <+: '&' :: behind

theorem inert_of_not_marks {text : List Char} (plain : ∀ c ∈ text, c ∉ marks) : Inert text where
  unmarked c among marked := plain c among (List.mem_cons_of_mem _ marked)
  references before behind same := by
    have among : '&' ∈ text := by simp [same]
    exact absurd List.mem_cons_self (plain '&' among)

theorem Inert.append {first second : List Char} (inert : Inert first) (others : Inert second) :
    Inert (first ++ second) where
  unmarked c among := (List.mem_append.1 among).elim (inert.unmarked c) (others.unmarked c)
  references before behind same := by
    rcases List.append_eq_append_iff.1 same with ⟨between, _, later⟩ | ⟨between, earlier, rest⟩
    · exact others.references between behind later
    · cases between with
      | nil =>
          have later : second = [] ++ '&' :: behind := by simpa using rest.symm
          exact others.references [] behind later
      | cons c between =>
          obtain ⟨rfl, rfl⟩ := List.cons.inj rest
          obtain ⟨entity, known, begins⟩ := inert.references before between earlier
          exact ⟨entity, known, begins.trans (List.prefix_append ('&' :: between) second)⟩

theorem entity_shape : ∀ entity ∈ entities,
    entity.toList.head? = some '&' ∧ ∀ c ∈ entity.toList.tail, c ∉ marks := by
  simp [entities, marks]

theorem inert_entity {entity : String} (known : entity ∈ entities) : Inert entity.toList := by
  obtain ⟨head, plain⟩ := entity_shape entity known
  have spelled := List.cons_head?_tail head
  constructor
  · intro c among marked
    rw [← spelled] at among
    rcases List.mem_cons.1 among with rfl | among
    · exact absurd marked (by decide)
    · exact plain c among (List.mem_cons_of_mem _ marked)
  · intro before behind same
    cases before with
    | nil =>
        refine ⟨entity, known, ?_⟩
        rw [same]
        exact List.prefix_rfl
    | cons _ before =>
        have among : '&' ∈ entity.toList.tail := by simp [same]
        exact absurd List.mem_cons_self (plain '&' among)

/-- What escaping writes for a character. -/
def writtenFor (c : Char) : List Char :=
  match entity? c with
  | some entity => entity.toList
  | none => [c]

theorem entity_mem_entities {c : Char} {entity : String} (found : entity? c = some entity) :
    entity ∈ entities := by
  unfold entity? at found
  split at found <;> cases found <;> decide

theorem not_mem_marks_of_no_entity {c : Char} (missing : entity? c = none) : c ∉ marks := by
  intro marked
  simp only [marks, List.mem_cons, List.not_mem_nil, or_false] at marked
  rcases marked with rfl | rfl | rfl | rfl | rfl <;> cases missing

theorem inert_written_for (c : Char) : Inert (writtenFor c) := by
  unfold writtenFor
  cases found : entity? c with
  | some entity => exact inert_entity (entity_mem_entities found)
  | none =>
      apply inert_of_not_marks
      intro other among
      rw [List.mem_singleton.1 among]
      exact not_mem_marks_of_no_entity found

theorem run_piece_characters (run : List Char) :
    (runPiece run).flatMap String.toList = run.reverse := by
  unfold runPiece
  split <;> simp_all

/-- Pieces are cut between characters that are escaped; together they are what is written for one
character after the other. -/
theorem html_pieces_characters (run text : List Char) :
    (htmlPieces run text).flatMap String.toList = run.reverse ++ text.flatMap writtenFor := by
  induction text generalizing run with
  | nil => simp [htmlPieces, run_piece_characters]
  | cons c rest ih =>
      unfold htmlPieces
      rw [List.flatMap_cons, writtenFor]
      cases found : entity? c with
      | some entity =>
          simp only [List.flatMap_append, List.flatMap_cons, run_piece_characters, ih]
          rfl
      | none =>
          simp only [ih, List.reverse_cons, List.append_assoc]

theorem written_html (text : String) :
    (written html text).toList = text.toList.flatMap writtenFor := by
  rw [written, String.toList_join]
  exact html_pieces_characters [] text.toList

theorem inert_written_html (text : String) : Inert (written html text).toList := by
  rw [written_html]
  induction text.toList with
  | nil => exact inert_of_not_marks (by simp)
  | cons c rest ih =>
      rw [List.flatMap_cons]
      exact (inert_written_for c).append ih

end Mustache.Escape

import Mustache.Proofs.LineComposition
import Mustache.Proofs.TagForms
import Mustache.Text.Slice

/-!
Byte positions of a text. Those between its characters are the ones it can be cut at. A search
among its bytes knows nothing of characters; yet where it finds the bytes of another text, that text
stands, from one character to another, for no character has the bytes within it that begin one.
-/

namespace Mustache

/-- A search for bytes among bytes: the position of the ones in the others. -/
abbrev Search := List UInt8 → List UInt8 → Option Nat

/-- The position found is that of the first occurrence, and one is found if there is one. -/
def Search.FindsFirst (search : Search) : Prop :=
  ∀ {needle : List UInt8}, needle ≠ [] → ∀ {bytes : List UInt8} {position : Nat},
    search needle bytes = some position ↔
      needle <+: bytes.drop position ∧ ∀ earlier < position, ¬ needle <+: bytes.drop earlier

namespace Text

/-- The bytes of a text in UTF-8. -/
def bytes (text : List Char) : List UInt8 := text.flatMap String.utf8EncodeChar

/-- The byte position is one between two characters of the text, or an end of it. -/
def Between (position : Nat) (text : List Char) : Prop :=
  ∃ before behind, text = before ++ behind ∧ width before = position

theorem bytes_append (text more : List Char) : bytes (text ++ more) = bytes text ++ bytes more :=
  List.flatMap_append

theorem length_bytes (text : List Char) : (bytes text).length = width text := by
  induction text with
  | nil => rfl
  | cons c rest ih =>
      rw [← List.singleton_append, bytes_append, List.length_append, ih, width_append]
      simp [bytes, width]

theorem between_of_append (before behind : List Char) : Between (width before) (before ++ behind) :=
  ⟨before, behind, rfl, rfl⟩

theorem Between.le_width {position : Nat} {text : List Char} (between : Between position text) :
    position ≤ width text := by
  obtain ⟨before, behind, rfl, rfl⟩ := between
  rw [width_append]
  exact Nat.le_add_right _ _

/-- The positions between characters are those that are valid in a string. -/
theorem between_iff_is_valid {position : Nat} {source : String} :
    Between position source.toList ↔ String.Pos.Raw.IsValid source ⟨position⟩ := by
  rw [String.Pos.Raw.isValid_iff_exists_append]
  constructor
  · rintro ⟨before, behind, same, rfl⟩
    refine ⟨String.ofList before, String.ofList behind, ?_, ?_⟩
    · rw [← String.ofList_append, ← same, String.ofList_toList]
    · rw [String.Pos.Raw.ext_iff, String.byteIdx_rawEndPos, ← width_eq_utf8_size,
        String.toList_ofList]
  · rintro ⟨before, behind, rfl, same⟩
    refine ⟨before.toList, behind.toList, String.toList_append, ?_⟩
    rw [width_eq_utf8_size, ← String.byteIdx_rawEndPos, ← same]

/-! ### Bytes of a text among bytes of a text -/

theorem first_byte_of_bytes (c : Char) (rest : List Char) :
    ∃ first others, bytes (c :: rest) = first :: others ∧ first.IsUTF8FirstByte := by
  have first := UInt8.isUTF8FirstByte_getElem_zero_utf8EncodeChar (c := c)
  obtain ⟨byte, others, encoded⟩ :=
    List.exists_cons_of_ne_nil (String.utf8EncodeChar_ne_nil (c := c))
  refine ⟨byte, others ++ bytes rest, ?_, ?_⟩
  · rw [bytes, List.flatMap_cons, encoded]
    rfl
  · simpa [encoded] using first

/-- The bytes of a character tell the character, whatever follows. -/
theorem encoded_inj {c other : Char} {bytes rest : List UInt8}
    (same : String.utf8EncodeChar c ++ bytes = String.utf8EncodeChar other ++ rest) :
    c = other := by
  have decoded := ByteArray.utf8DecodeChar?_utf8EncodeChar_append (b := bytes.toByteArray) (c := c)
  rw [← List.toByteArray_append, same, List.toByteArray_append,
    ByteArray.utf8DecodeChar?_utf8EncodeChar_append] at decoded
  exact (Option.some.inj decoded).symm

theorem prefix_of_bytes {needle text : List Char} (begins : bytes needle <+: bytes text) :
    needle <+: text := by
  induction needle generalizing text with
  | nil => exact List.nil_prefix
  | cons c needle ih =>
      obtain ⟨behind, same⟩ := begins
      cases text with
      | nil =>
          obtain ⟨_, _, shape, _⟩ := first_byte_of_bytes c needle
          rw [shape] at same
          cases same
      | cons first rest =>
          simp only [bytes, List.flatMap_cons, List.append_assoc] at same
          obtain rfl := encoded_inj same
          exact (List.prefix_cons_inj c).2 (ih ⟨behind, List.append_cancel_left same⟩)

theorem bytes_begin_iff {needle text : List Char} :
    (bytes needle).isPrefixOf (bytes text) = true ↔ needle <+: text := by
  rw [List.isPrefixOf_iff_prefix]
  refine ⟨prefix_of_bytes, ?_⟩
  rintro ⟨behind, rfl⟩
  exact ⟨bytes behind, (bytes_append _ _).symm⟩

/-- By induction on the text in front: a first byte is none of those that go on with a character. -/
theorem occurs_between {needle text : List Char} (nonempty : needle ≠ []) {position : Nat}
    (occurs : bytes needle <+: (bytes text).drop position) :
    ∃ before behind, text = before ++ (needle ++ behind) ∧ width before = position := by
  obtain ⟨c, others, rfl⟩ := List.exists_cons_of_ne_nil nonempty
  obtain ⟨first, more, shape, isFirst⟩ := first_byte_of_bytes c others
  induction text generalizing position with
  | nil =>
      have noneThere : (bytes []).drop position = [] := List.drop_nil
      rw [noneThere, shape] at occurs
      simp at occurs
  | cons head rest ih =>
      rcases Nat.eq_zero_or_pos position with rfl | inside
      · obtain ⟨behind, same⟩ := prefix_of_bytes occurs
        exact ⟨[], behind, same.symm, rfl⟩
      · have split : bytes (head :: rest) = String.utf8EncodeChar head ++ bytes rest :=
          List.flatMap_cons
        have size : (String.utf8EncodeChar head).length = head.utf8Size :=
          String.length_utf8EncodeChar head
        by_cases within : position < head.utf8Size
        · obtain ⟨behind, same⟩ := occurs
          have held : position < (String.utf8EncodeChar head).length := size ▸ within
          rw [split, shape, List.drop_append_of_le_length held.le,
            List.drop_eq_getElem_cons held, List.cons_append, List.cons_append] at same
          rw [(List.cons.inj same).1, UInt8.isUTF8FirstByte_getElem_utf8EncodeChar] at isFirst
          omega
        · rw [split, List.drop_append, List.drop_eq_nil_of_le (by omega), List.nil_append,
            size] at occurs
          obtain ⟨before, behind, rfl, wide⟩ := ih occurs
          exact ⟨head :: before, behind, rfl, by rw [width, wide]; omega⟩

theorem occurs_of_append (before needle behind : List Char) :
    bytes needle <+: (bytes (before ++ (needle ++ behind))).drop (width before) := by
  rw [bytes_append, ← length_bytes, List.drop_left, bytes_append]
  exact List.prefix_append _ _

theorem cut_of_append (needle before behind : List Char) :
    ∃ pair, cut? needle (before ++ (needle ++ behind)) = some pair := by
  induction before with
  | nil =>
      rw [List.nil_append]
      exact ⟨_, cut_of_ends_first (ends_first_nil needle) behind⟩
  | cons c rest ih =>
      obtain ⟨pair, found⟩ := ih
      rw [List.cons_append, cut?]
      cases after? needle (c :: (rest ++ (needle ++ behind))) with
      | some suffix => exact ⟨_, rfl⟩
      | none => exact ⟨_, by rw [found, Option.map_some]⟩

/-- A search among the bytes finds a text where it is first cut around. -/
theorem search_text {search : Search} (finds : search.FindsFirst) {needle : List Char}
    (nonempty : needle ≠ []) (text : List Char) :
    search (bytes needle) (bytes text) = (cut? needle text).map fun pair => width pair.1 := by
  have filled : bytes needle ≠ [] := by
    obtain ⟨c, others, rfl⟩ := List.exists_cons_of_ne_nil nonempty
    obtain ⟨_, _, shape, _⟩ := first_byte_of_bytes c others
    rw [shape]
    exact List.cons_ne_nil _ _
  cases found : cut? needle text with
  | none =>
      cases position : search (bytes needle) (bytes text) with
      | none => rfl
      | some position =>
          obtain ⟨before, behind, rfl, _⟩ :=
            occurs_between nonempty ((finds filled).1 position).1
          obtain ⟨pair, cut⟩ := cut_of_append needle before behind
          rw [cut] at found
          cases found
  | some pair =>
      obtain ⟨before, behind⟩ := pair
      rw [Option.map_some, finds filled]
      have whole := cut_append found
      refine ⟨by rw [whole]; exact occurs_of_append before needle behind, ?_⟩
      intro earlier sooner occurs
      obtain ⟨front, rest, same, rfl⟩ := occurs_between nonempty occurs
      -- the first place to cut lies no later, as a part of the text in front of the other
      have short := cut_first found same
      have begins : before <+: front :=
        List.prefix_of_prefix_length_le ⟨_, whole.symm⟩ ⟨_, same.symm⟩ short
      obtain ⟨between, rfl⟩ := begins
      simp only [width_append] at sooner
      omega

end Text

/-- The first position at which the bytes begin with others. -/
def Search.naive : Search := fun needle bytes =>
  (List.range bytes.length).find? fun position => needle.isPrefixOf (bytes.drop position)

theorem Search.naive_finds_first : Search.naive.FindsFirst := by
  intro needle nonempty bytes position
  have inside (begins : needle <+: bytes.drop position) : position < bytes.length := by
    by_contra beyond
    rw [List.drop_eq_nil_of_le (by omega)] at begins
    exact nonempty (List.prefix_nil.1 begins)
  simp only [Search.naive, List.find?_range_eq_some, List.isPrefixOf_iff_prefix, List.mem_range,
    Bool.not_eq_true', ← Bool.not_eq_true]
  constructor
  · rintro ⟨begins, _, first⟩
    exact ⟨begins, first⟩
  · rintro ⟨begins, first⟩
    exact ⟨begins, inside begins, first⟩

end Mustache

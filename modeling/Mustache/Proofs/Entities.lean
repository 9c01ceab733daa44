import Mustache.Proofs.HtmlText
import Mustache.Proofs.LineComposition
import Mustache.Text.Width

/-!
Escaping for HTML by bytes, and back. The escape can be carried out on the bytes of a text: five
of them are replaced, and what lies between is handed on in one part each. The parts lie between
characters, whatever the widths of these, so that the text comes out as if each character had been
escaped by itself. Reading the entities back, from left to right and each once, gives the text
again.
-/

namespace Mustache.Escape

/-- The entity for a byte. The five that have one lie close together, and a subtraction that wraps
around tells by one comparison whether a byte is among or between them. -/
def entityOfByte? (byte : UInt8) : Option String :=
  if byte - 0x22 ≤ 0x3E - 0x22 then
    match byte with
    | 0x3C => some "&lt;"
    | 0x3E => some "&gt;"
    | 0x26 => some "&amp;"
    | 0x22 => some "&quot;"
    | 0x27 => some "&#39;"
    | _ => none
  else none

/-- What is handed on at once: a part of the text, from one byte position to another, or an
entity. -/
inductive Cut
  | part (first stop : Nat)
  | entity (content : String)
  deriving DecidableEq, Repr

def partBetween (first stop : Nat) : List Cut := if first < stop then [.part first stop] else []

/-- The cuts of a text whose bytes from `next` on are given, and of which nothing from `first` on
has been handed on. -/
def cutsFrom (first next : Nat) : List UInt8 → List Cut
  | [] => partBetween first next
  | byte :: rest =>
      match entityOfByte? byte with
      | some entity =>
          partBetween first next ++ .entity entity :: cutsFrom (next + 1) (next + 1) rest
      | none => cutsFrom first (next + 1) rest

def cuts (text : String) : List Cut := cutsFrom 0 0 text.toUTF8.data.toList

/-- The text of a cut. A part that begins or ends within a character has none. -/
def Cut.piece? (text : String) : Cut → Option String
  | .part first stop =>
      if bounds : String.Pos.Raw.IsValid text ⟨first⟩ ∧ String.Pos.Raw.IsValid text ⟨stop⟩ then
        some (text.extract ⟨⟨first⟩, bounds.1⟩ ⟨⟨stop⟩, bounds.2⟩)
      else none
  | .entity content => some content

/-- The text with each entity replaced by its character, in one pass from the left. -/
def readEntities : List Char → List Char
  | '&' :: 'l' :: 't' :: ';' :: rest => '<' :: readEntities rest
  | '&' :: 'g' :: 't' :: ';' :: rest => '>' :: readEntities rest
  | '&' :: 'a' :: 'm' :: 'p' :: ';' :: rest => '&' :: readEntities rest
  | '&' :: 'q' :: 'u' :: 'o' :: 't' :: ';' :: rest => '\x22' :: readEntities rest
  | '&' :: '#' :: '3' :: '9' :: ';' :: rest => '\x27' :: readEntities rest
  | c :: rest => c :: readEntities rest
  | [] => []

def unescaped (text : String) : String := String.ofList (readEntities text.toList)

theorem entity_of_byte_eq_none_of_high {byte : UInt8} (high : 0x80 ≤ byte.toNat) :
    entityOfByte? byte = none := by
  have far : ¬ byte - 0x22 ≤ 0x3E - 0x22 := by
    rw [UInt8.le_iff_toNat_le, UInt8.toNat_sub]
    have below := byte.toNat_lt
    simp
    omega
  unfold entityOfByte?
  rw [if_neg far]

/-- For the characters of one byte the tables of bytes and of characters are one. -/
theorem entity_of_byte_eq :
    ∀ code < 0x80, entityOfByte? (UInt8.ofNat code) = entity? (Char.ofNat code) := by
  decide

/-- A character with an entity is one byte that has the same; of any other no byte has one. -/
theorem entity_of_bytes (c : Char) :
    match entity? c with
    | some entity =>
        ∃ byte, String.utf8EncodeChar c = [byte] ∧ entityOfByte? byte = some entity
    | none => ∀ byte ∈ String.utf8EncodeChar c, entityOfByte? byte = none := by
  by_cases low : c.toNat ≤ 0x7F
  · have encoded : String.utf8EncodeChar c = [UInt8.ofNat c.toNat] := by
      simp only [String.utf8EncodeChar, Char.toNat] at low ⊢
      rw [if_pos low]
    have same : entityOfByte? (UInt8.ofNat c.toNat) = entity? c := by
      rw [entity_of_byte_eq c.toNat (by omega), Char.ofNat_toNat]
    rw [encoded]
    cases found : entity? c with
    | some entity => exact ⟨_, rfl, same.trans found⟩
    | none => simpa using same.trans found
  · have missing : entity? c = none := by
      unfold entity?
      split <;> first | rfl | exact absurd (by decide) low
    rw [missing]
    intro byte among
    apply entity_of_byte_eq_none_of_high
    -- all bytes of a longer form have their highest bit set
    simp only [String.utf8EncodeChar, Char.toNat] at among low
    rw [if_neg low] at among
    split at among
    · simp only [List.mem_cons, List.not_mem_nil, or_false] at among
      rcases among with rfl | rfl <;> simp <;> omega
    · split at among <;>
        simp only [List.mem_cons, List.not_mem_nil, or_false] at among
      · rcases among with rfl | rfl | rfl <;> simp <;> omega
      · rcases among with rfl | rfl | rfl | rfl <;> simp <;> omega

theorem cuts_from_passed {bytes : List UInt8} (passed : ∀ byte ∈ bytes, entityOfByte? byte = none)
    (first next : Nat) (rest : List UInt8) :
    cutsFrom first next (bytes ++ rest) = cutsFrom first (next + bytes.length) rest := by
  induction bytes generalizing next with
  | nil => rfl
  | cons byte others ih =>
      obtain ⟨here, behind⟩ := List.forall_mem_cons.1 passed
      rw [List.cons_append, cutsFrom, here]
      simp only [ih behind, List.length_cons]
      rw [Nat.add_assoc, Nat.add_comm 1]

/-- Between characters there is a piece of the text. -/
theorem piece_of_part {before between behind : List Char} {text : String}
    (whole : text.toList = before ++ between ++ behind) :
    Cut.piece? text (.part (Text.width before) (Text.width before + Text.width between)) =
      some (String.ofList between) := by
  obtain rfl : text = String.ofList before ++ String.ofList between ++ String.ofList behind := by
    rw [← String.toList_inj, whole]
    simp
  have size (chars : List Char) : (String.ofList chars).utf8ByteSize = Text.width chars := by
    rw [← Text.width_eq_utf8_size, String.toList_ofList]
  have first : String.Pos.Raw.IsValid
      (String.ofList before ++ String.ofList between ++ String.ofList behind)
      ⟨Text.width before⟩ := by
    rw [String.Pos.Raw.isValid_iff_exists_append]
    exact ⟨_, _, String.append_assoc .., by rw [← size]; rfl⟩
  have stop : String.Pos.Raw.IsValid
      (String.ofList before ++ String.ofList between ++ String.ofList behind)
      ⟨Text.width before + Text.width between⟩ := by
    rw [String.Pos.Raw.isValid_iff_exists_append]
    refine ⟨_, _, rfl, ?_⟩
    rw [← Text.width_append, ← size, String.ofList_append]
    rfl
  have bytes (chars : List Char) : (String.ofList chars).toByteArray.size = Text.width chars :=
    size chars
  rw [Cut.piece?, dif_pos ⟨first, stop⟩, Option.some_inj, ← String.toByteArray_inj,
    String.toByteArray_extract, String.toByteArray_append, String.toByteArray_append,
    ByteArray.append_assoc]
  calc
    _ = ((String.ofList between).toByteArray ++ (String.ofList behind).toByteArray).extract 0
          (Text.width between) :=
        ByteArray.extract_append_size_add' (bytes before).symm
    _ = (String.ofList between).toByteArray :=
        ByteArray.extract_append_eq_left (bytes between).symm

theorem part_between_pieces {before run behind : List Char} {text : String}
    (whole : text.toList = before ++ run.reverse ++ behind) :
    (partBetween (Text.width before) (Text.width before + Text.width run.reverse)).map
        (Cut.piece? text) =
      (runPiece run).map some := by
  cases run with
  | nil => simp [partBetween, runPiece, Text.width]
  | cons c earlier =>
      have wide : 0 < Text.width (c :: earlier).reverse := by
        rw [List.reverse_cons, Text.width_append, Text.width]
        have := c.utf8Size_pos
        omega
      rw [partBetween, if_pos (by omega), List.map_singleton, piece_of_part whole]
      rfl

/-- A scan that has come to the end of `run`, newest first, hands on from there what the escape
makes of the run and the rest. -/
theorem cuts_from_pieces {text : String} (rest : List Char) {before run : List Char}
    (whole : text.toList = before ++ run.reverse ++ rest) :
    (cutsFrom (Text.width before) (Text.width before + Text.width run.reverse)
        (rest.flatMap String.utf8EncodeChar)).map (Cut.piece? text) =
      (htmlPieces run rest).map some := by
  induction rest generalizing before run with
  | nil => exact part_between_pieces whole
  | cons c rest ih =>
      have ofBytes := entity_of_bytes c
      rw [List.flatMap_cons, htmlPieces]
      cases found : entity? c with
      | some entity =>
          rw [found] at ofBytes
          obtain ⟨byte, encoded, same⟩ := ofBytes
          have single : c.utf8Size = 1 := by
            rw [← String.length_utf8EncodeChar, encoded, List.length_singleton]
          have onward : text.toList = (before ++ run.reverse ++ [c]) ++ [].reverse ++ rest := by
            simpa using whole
          have goesOn := ih onward
          simp only [Text.width_append, List.reverse_nil, Text.width, single, Nat.add_zero]
            at goesOn
          rw [encoded, List.singleton_append, cutsFrom, same]
          simp only [List.map_append, List.map_cons, part_between_pieces whole, goesOn,
            Cut.piece?]
      | none =>
          rw [found] at ofBytes
          have onward : text.toList = before ++ (c :: run).reverse ++ rest := by simpa using whole
          have goesOn := ih onward
          simp only [Text.width_append, List.reverse_cons, Text.width, Nat.add_zero,
            ← Nat.add_assoc] at goesOn
          rw [cuts_from_passed ofBytes, String.length_utf8EncodeChar]
          exact goesOn

theorem utf8_bytes (text : String) :
    text.toUTF8.data.toList = text.toList.flatMap String.utf8EncodeChar := by
  have spelled : text.toUTF8 = (text.toList.flatMap String.utf8EncodeChar).toByteArray := by
    rw [String.toUTF8_eq_toByteArray, ← List.utf8Encode, ← String.toByteArray_ofList,
      String.ofList_toList]
  rw [spelled, List.data_toByteArray]

theorem cuts_pieces (text : String) :
    (cuts text).map (Cut.piece? text) = (html text).pieces.map some := by
  have whole : text.toList = [] ++ [].reverse ++ text.toList := rfl
  rw [cuts, utf8_bytes]
  exact cuts_from_pieces text.toList whole

/-- No part is empty. -/
theorem lt_of_mem_cuts_from {first stop start next : Nat} {bytes : List UInt8}
    (among : .part first stop ∈ cutsFrom start next bytes) : first < stop := by
  have ofBetween {low high : Nat} (held : .part first stop ∈ partBetween low high) :
      first < stop := by
    unfold partBetween at held
    split at held
    · cases List.mem_singleton.1 held
      assumption
    · cases held
  induction bytes generalizing start next with
  | nil => exact ofBetween among
  | cons byte rest ih =>
      rw [cutsFrom] at among
      split at among
      · simp only [List.mem_append, List.mem_cons, reduceCtorEq, false_or] at among
        exact among.elim ofBetween ih
      · exact ih among

/-- A part has a piece, so it begins and ends between characters. -/
theorem valid_of_mem_cuts {first stop : Nat} {text : String}
    (among : .part first stop ∈ cuts text) :
    String.Pos.Raw.IsValid text ⟨first⟩ ∧ String.Pos.Raw.IsValid text ⟨stop⟩ := by
  have hasPiece : Cut.piece? text (.part first stop) ∈ (cuts text).map (Cut.piece? text) :=
    List.mem_map_of_mem among
  rw [cuts_pieces, List.mem_map] at hasPiece
  obtain ⟨piece, _, same⟩ := hasPiece
  rw [Cut.piece?] at same
  split at same
  next bounds => exact bounds
  · cases same

theorem read_entities_cons {c : Char} (plain : c ≠ '&') (rest : List Char) :
    readEntities (c :: rest) = c :: readEntities rest := by
  rw [readEntities]
  all_goals
    intro _ begins
    exact absurd begins plain

/-- What is written for a character is read as the character, whatever follows. -/
theorem read_written_for (c : Char) (rest : List Char) :
    readEntities (writtenFor c ++ rest) = c :: readEntities rest := by
  cases found : entity? c with
  | none =>
      have plain : c ≠ '&' := by
        rintro rfl
        cases found
      rw [writtenFor, found]
      exact read_entities_cons plain rest
  | some entity =>
      unfold entity? at found
      split at found <;> first | rfl | cases found

theorem unescaped_written_html (text : String) : unescaped (written html text) = text := by
  have read (chars : List Char) : readEntities (chars.flatMap writtenFor) = chars := by
    induction chars with
    | nil => rfl
    | cons c rest ih => rw [List.flatMap_cons, read_written_for, ih]
  rw [unescaped, written_html, read, String.ofList_toList]

theorem written_html_append (text more : String) :
    written html (text ++ more) = written html text ++ written html more := by
  rw [← String.toList_inj, String.toList_append]
  simp only [written_html, String.toList_append, List.flatMap_append]

/-- Escaping for HTML escapes each character by itself. Carried out on the bytes of a text it hands
on the same pieces: each is an entity or a part of the text that is not empty and begins and ends
between characters. So it distributes over texts put behind each other; and since reading the
entities back gives the text, entities it had itself included, no two texts are escaped alike. -/
theorem html_escapes_each_character (text : String) :
    (written html text).toList = text.toList.flatMap writtenFor ∧
      (html text).gaveUp = false ∧
      (cuts text).map (Cut.piece? text) = (html text).pieces.map some ∧
      (∀ first stop, .part first stop ∈ cuts text →
        first < stop ∧ String.Pos.Raw.IsValid text ⟨first⟩ ∧
          String.Pos.Raw.IsValid text ⟨stop⟩) ∧
      (∀ more, written html (text ++ more) = written html text ++ written html more) ∧
      unescaped (written html text) = text ∧
      ∀ other, written html other = written html text → other = text := by
  refine ⟨written_html text, rfl, cuts_pieces text, ?_, written_html_append text,
    unescaped_written_html text, ?_⟩
  · intro first stop among
    exact ⟨lt_of_mem_cuts_from among, valid_of_mem_cuts among⟩
  · intro other same
    calc
      other = unescaped (written html other) := (unescaped_written_html other).symm
      _ = unescaped (written html text) := by rw [same]
      _ = text := unescaped_written_html text

/-- Characters of one, two and four bytes among those that are escaped, and an entity. -/
example :
    cuts "<é&amp;😀'" =
      [.entity "&lt;", .part 1 3, .entity "&amp;", .part 4 12, .entity "&#39;"] ∧
      unescaped "&amp;lt;" = "&lt;" := by
  decide +kernel

end Mustache.Escape

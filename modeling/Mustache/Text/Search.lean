/-!
Finding text in text. A cut happens around the first occurrence, and what is cut
puts together to what was searched.
-/

namespace Mustache.Text

/-- What follows `needle` when the text starts with it. -/
def after? : List Char → List Char → Option (List Char)
  | [], text => some text
  | _ :: _, [] => none
  | wanted :: needle, found :: rest => if wanted = found then after? needle rest else none

/-- The text before and after the first occurrence of `needle`. -/
def cut? (needle : List Char) : List Char → Option (List Char × List Char)
  | [] => (after? needle []).map fun suffix => ([], suffix)
  | c :: rest =>
      match after? needle (c :: rest) with
      | some suffix => some ([], suffix)
      | none => (cut? needle rest).map fun pair => (c :: pair.1, pair.2)

/-- The pieces between the occurrences of one character, at least one. -/
def splitAt (mark : Char) : List Char → List (List Char)
  | [] => [[]]
  | c :: rest =>
      if c = mark then [] :: splitAt mark rest
      else
        match splitAt mark rest with
        | [] => [[c]]
        | piece :: pieces => (c :: piece) :: pieces

theorem split_at_ne_nil (mark : Char) (text : List Char) : splitAt mark text ≠ [] := by
  cases text with
  | nil => simp [splitAt]
  | cons c rest =>
      simp only [splitAt]
      split
      · simp
      · split <;> simp

theorem after_eq_some_iff {needle text suffix : List Char} :
    after? needle text = some suffix ↔ text = needle ++ suffix := by
  induction needle generalizing text with
  | nil => simp [after?, eq_comm]
  | cons wanted needle ih =>
      cases text with
      | nil => simp [after?]
      | cons found rest =>
          by_cases same : wanted = found
          · subst same; simp [after?, ih]
          · simp [after?, same, Ne.symm same]

theorem cut_append {needle text before suffix : List Char}
    (found : cut? needle text = some (before, suffix)) : text = before ++ (needle ++ suffix) := by
  induction text generalizing before suffix with
  | nil =>
      simp only [cut?, Option.map_eq_some_iff, Prod.mk.injEq] at found
      obtain ⟨rest, matched, rfl, rfl⟩ := found
      simpa using after_eq_some_iff.1 matched
  | cons c rest ih =>
      simp only [cut?] at found
      split at found
      next suffix' matched =>
        simp only [Option.some.injEq, Prod.mk.injEq] at found
        obtain ⟨rfl, rfl⟩ := found
        simpa using after_eq_some_iff.1 matched
      next =>
        simp only [Option.map_eq_some_iff, Prod.mk.injEq] at found
        obtain ⟨pair, cutRest, rfl, rfl⟩ := found
        rw [List.cons_append, ← ih cutRest]

theorem cut_suffix {needle text before suffix : List Char}
    (found : cut? needle text = some (before, suffix)) : needle ++ suffix <:+ text :=
  ⟨before, (cut_append found).symm⟩

theorem cut_ne_nil {needle text : List Char} {pair : List Char × List Char}
    (nonempty : needle ≠ []) (found : cut? needle text = some pair) : text ≠ [] := by
  rintro rfl
  cases needle with
  | nil => exact nonempty rfl
  | cons wanted rest => simp [cut?, after?] at found

theorem cut_length {needle text before suffix : List Char}
    (found : cut? needle text = some (before, suffix)) :
    suffix.length + needle.length ≤ text.length := by
  rw [cut_append found]
  simp only [List.length_append]
  omega

theorem after_append {needle text suffix : List Char}
    (found : after? needle text = some suffix) (more : List Char) :
    after? needle (text ++ more) = some (suffix ++ more) := by
  rw [after_eq_some_iff] at found ⊢
  rw [found, List.append_assoc]

/-- Text that follows lets nothing begin with a needle that had room to begin before. -/
theorem after_append_none {needle text : List Char} (missing : after? needle text = none)
    (room : needle.length ≤ text.length) (more : List Char) :
    after? needle (text ++ more) = none := by
  cases found : after? needle (text ++ more) with
  | none => rfl
  | some suffix =>
      have whole := after_eq_some_iff.1 found
      have begins : needle <+: text :=
        List.prefix_of_prefix_length_le ⟨suffix, whole.symm⟩ (List.prefix_append text more) room
      obtain ⟨rest, same⟩ := begins
      rw [after_eq_some_iff.2 same.symm] at missing
      contradiction

theorem cut_append_more {needle text before suffix : List Char}
    (found : cut? needle text = some (before, suffix)) (more : List Char) :
    cut? needle (text ++ more) = some (before, suffix ++ more) := by
  induction text generalizing before with
  | nil =>
      simp only [cut?, Option.map_eq_some_iff, Prod.mk.injEq] at found
      obtain ⟨rest, matched, rfl, rfl⟩ := found
      have empty := after_eq_some_iff.1 matched
      obtain ⟨rfl, rfl⟩ := List.append_eq_nil_iff.1 empty.symm
      cases more <;> simp [cut?, after?]
  | cons c rest ih =>
      have room := cut_length found
      simp only [cut?] at found
      split at found
      next suffix' matched =>
        simp only [Option.some.injEq, Prod.mk.injEq] at found
        obtain ⟨rfl, rfl⟩ := found
        have stays := after_append matched more
        simp only [List.cons_append] at stays ⊢
        simp only [cut?, stays]
      next missing =>
        simp only [Option.map_eq_some_iff, Prod.mk.injEq] at found
        obtain ⟨pair, cutRest, rfl, rfl⟩ := found
        have stays := after_append_none missing (by omega) more
        simp only [List.cons_append] at stays ⊢
        simp only [cut?, stays, ih cutRest, Option.map_some]

end Mustache.Text

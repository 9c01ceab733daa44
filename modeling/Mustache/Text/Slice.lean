import Mustache.Text.Width

/-!
Texts cut at byte positions. A text can be cut between its characters; within a character or
beyond the end of the text there is nothing to cut at.
-/

namespace Mustache

/-- A text was to be cut within a character or beyond its end. -/
structure Torn where
  deriving DecidableEq, Repr

namespace Text

/-- The two parts of a text before and behind a byte position. -/
def divide (position : Nat) : List Char → Except Torn (List Char × List Char)
  | [] => if position = 0 then .ok ([], []) else .error {}
  | c :: rest =>
      if position = 0 then .ok ([], c :: rest)
      else if position < c.utf8Size then .error {}
      else (divide (position - c.utf8Size) rest).map fun parts => (c :: parts.1, parts.2)

/-- The part of a text from one byte position to another. -/
def part (first stop : Nat) (text : List Char) : Except Torn (List Char) := do
  if stop < first then throw {}
  let (_, behind) ← divide first text
  let (between, _) ← divide (stop - first) behind
  return between

theorem divide_append (before behind : List Char) :
    divide (width before) (before ++ behind) = .ok (before, behind) := by
  induction before with
  | nil => cases behind <;> rfl
  | cons c rest ih =>
      have wide := c.utf8Size_pos
      have remaining : width (c :: rest) - c.utf8Size = width rest := by
        rw [width]
        omega
      rw [List.cons_append, divide, if_neg (by rw [width]; omega), if_neg (by rw [width]; omega),
        remaining, ih]
      rfl

theorem part_append (before between behind : List Char) :
    part (width before) (width before + width between) (before ++ (between ++ behind)) =
      .ok between := by
  have ordered : ¬ width before + width between < width before := by omega
  simp only [part, if_neg ordered, divide_append, Nat.add_sub_cancel_left, bind, Except.bind, pure,
    Except.pure]

/-- A text is cut in one way only at a byte position. -/
theorem parts_inj {before behind front rest : List Char}
    (same : before ++ behind = front ++ rest) (wide : width before = width front) :
    before = front ∧ behind = rest := by
  have divided := divide_append before behind
  rw [same, wide, divide_append] at divided
  exact Prod.mk.inj (Except.ok.inj divided.symm)

end Text

end Mustache

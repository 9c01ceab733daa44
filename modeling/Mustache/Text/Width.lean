/-!
Positions in a text are byte positions of its UTF-8 form.
-/

namespace Mustache.Text

def width : List Char → Nat
  | [] => 0
  | c :: rest => c.utf8Size + width rest

@[simp] theorem width_append (text suffix : List Char) :
    width (text ++ suffix) = width text + width suffix := by
  induction text with
  | nil => simp [width]
  | cons c rest ih => simp [width, ih, Nat.add_assoc]

def lineFeedsBefore : Nat → List Char → Nat
  | _, [] => 0
  | position, c :: rest =>
      if position = 0 then 0
      else (if c = '\n' then 1 else 0) + lineFeedsBefore (position - c.utf8Size) rest

/-- The number of the line that holds the byte position, counted from one. -/
def lineAt (position : Nat) (text : List Char) : Nat := lineFeedsBefore position text + 1

end Mustache.Text

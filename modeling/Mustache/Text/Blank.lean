/-!
Blank characters and the ways text is cut at them. A character is blank exactly
when it has the Unicode property White_Space.
-/

namespace Mustache.Text

/-- The code points with the property White_Space. -/
def blankCodes : List Nat :=
  [0x09, 0x0A, 0x0B, 0x0C, 0x0D, 0x20, 0x85, 0xA0, 0x1680, 0x2000, 0x2001, 0x2002, 0x2003,
    0x2004, 0x2005, 0x2006, 0x2007, 0x2008, 0x2009, 0x200A, 0x2028, 0x2029, 0x202F, 0x205F,
    0x3000]

def isBlank (c : Char) : Bool := blankCodes.contains c.toNat

def dropBlank (text : List Char) : List Char := text.dropWhile isBlank

def trimEnd : List Char → List Char
  | [] => []
  | c :: rest =>
      match trimEnd rest with
      | [] => if isBlank c then [] else [c]
      | kept => c :: kept

def firstWord (text : List Char) : List Char := text.takeWhile fun c => !isBlank c

/-- What follows the first word, without the blanks in between. -/
def afterFirstWord (text : List Char) : List Char :=
  dropBlank (text.dropWhile fun c => !isBlank c)

/-- Where a text does not end within its leading blanks, they are the same before more text. -/
theorem drop_blank_append {text : List Char} (solid : dropBlank text ≠ []) (more : List Char) :
    dropBlank (text ++ more) = dropBlank text ++ more := by
  have inked : (text.dropWhile isBlank).isEmpty = false := by
    simpa only [List.isEmpty_eq_false_iff, dropBlank] using solid
  rw [dropBlank, dropBlank, List.dropWhile_append, inked]
  simp

end Mustache.Text

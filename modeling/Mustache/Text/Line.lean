/-!
The lines of a text. A line feed ends a line and takes one carriage return right
before it along; nothing follows a final line feed.
-/

namespace Mustache.Text

def dropReturn : List Char → List Char
  | [] => []
  | ['\r'] => []
  | c :: rest => c :: dropReturn rest

/-- The lines from here on, `current` being the characters of the open line, newest first. -/
def linesFrom (current : List Char) : List Char → List (List Char)
  | [] => if current.isEmpty then [] else [current.reverse]
  | c :: rest =>
      if c = '\n' then dropReturn current.reverse :: linesFrom [] rest
      else linesFrom (c :: current) rest

def lines (text : List Char) : List (List Char) := linesFrom [] text

end Mustache.Text

import Mustache.Delimiters
import Mustache.Escape

/-!
How templates are compiled and rendered.
-/

namespace Mustache

structure Settings where
  delimiters : Delimiters := .braces
  escape : Escape := Escape.html
  /-- How many partials may be open at once. -/
  partialLimit : Nat := 64
  /-- Whether a section over a value that is no list opens a scope for it. -/
  opensObjectScopes : Bool := false

end Mustache

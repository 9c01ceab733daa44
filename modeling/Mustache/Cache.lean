import Mustache.Node

/-!
The trees of templates already compiled, by their source. A template that does not
compile is not kept.
-/

namespace Mustache

abbrev Cache := List (String × List Node)

/-- How the tree of a source is come by where some trees are kept, and what is kept then. -/
abbrev Compiler := Delimiters → String → Cache → Except Error (List Node) × Cache

/-- The tree of a source: the kept one, or a new one that is kept from now on. -/
def Cache.parse : Compiler := fun delimiters source cache =>
  match cache.lookup source with
  | some nodes => (.ok nodes, cache)
  | none =>
      match Node.ofSource delimiters source with
      | .ok nodes => (.ok nodes, (source, nodes) :: cache)
      | .error error => (.error error, cache)

end Mustache

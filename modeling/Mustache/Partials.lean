import Mustache.Error
import Mustache.Journal
import Mustache.Value.Text

/-!
Where partials come from. A source may have no partial of a name, which then renders
nothing, or fail to load it.
-/

namespace Mustache

inductive Partials
  | function (answer : String → Except Error (Option String))
  | value (holder : Value)

namespace Partials

def ofList (entries : List (String × String)) : Partials :=
  .function fun name => .ok (entries.lookup name)

/-- The template of a partial. A value has the partials that are its members and not absent. -/
def load (source : Partials) (name : String) (journal : Journal) :
    Except Error (Option String) × Journal :=
  match source with
  | .function answer => (answer name, journal)
  | .value holder =>
      let (found, journal) := holder.member name journal
      match found with
      | some member => (.ok (if member.isAbsent then none else some member.display), journal)
      | none => (.ok none, journal)

end Partials

end Mustache

import Mustache.Value.Basic
import Mustache.Decimal.Layout
import Mustache.Text.Quoted

/-!
The text of a value: as it is put out by a template, and as it is shown for
inspection.
-/

namespace Mustache.Value

mutual

/-- The text put out for a value. What is missing has none, and items stand between commas. -/
def display : Value → String
  | .undefined | .none => ""
  | .bool truth => if truth then "true" else "false"
  | .unsigned number => toString number.toNat
  | .signed number => toString number.toInt
  | .float number => Decimal.plainLayout.text number
  | .text content => content
  | .list items => String.intercalate "," (displayEach items)
  | .map _ => "[object]"
  | .object ⟨_, _, _, _, some shown, _⟩ => shown
  | .object ⟨_, .plain, _, _, Option.none, inspected⟩ => inspected
  | .object ⟨_, .keyed, _, _, Option.none, _⟩ => "[object]"
  | .object ⟨_, .listed, _, Option.none, Option.none, _⟩ => ""
  | .object ⟨_, .listed, _, some items, Option.none, _⟩ =>
      String.intercalate "," (displayEach items)

def displayEach : List Value → List String
  | [] => []
  | item :: rest => item.display :: displayEach rest

end

mutual

def inspected : Value → String
  | .undefined => "undefined"
  | .none => "none"
  | .bool truth => if truth then "true" else "false"
  | .unsigned number => toString number.toNat
  | .signed number => toString number.toInt
  | .float number => Decimal.inspectedLayout.text number
  | .text content => Text.quoted content
  | .list items => "[" ++ String.intercalate ", " (inspectedEach items) ++ "]"
  | .map members => "\x7b" ++ String.intercalate ", " (inspectedMembers members) ++ "\x7d"
  | .object entity => entity.inspected

def inspectedEach : List Value → List String
  | [] => []
  | item :: rest => item.inspected :: inspectedEach rest

def inspectedMembers : Members Value → List String
  | [] => []
  | (key, value) :: rest =>
      (Text.quoted key ++ ": " ++ value.inspected) :: inspectedMembers rest

end

end Mustache.Value

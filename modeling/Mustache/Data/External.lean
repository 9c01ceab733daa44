import Mustache.Data.Basic
import Mustache.Value.Text

/-!
Values as data, for those who read them outside of the engine. What is missing is
unit; an object that names items is their sequence, any other its text.
-/

namespace Mustache.Value

mutual

def toData : Value → Data
  | .undefined | .none => .unit
  | .bool truth => .bool truth
  | .unsigned number => .integer (.word (.uint64 number))
  | .signed number => .integer (.word (.int64 number))
  | .float number => .float64 number
  | .text content => .text content
  | .list items => .sequence (itemsToData items)
  | .map members => .map (membersToData members)
  | .object ⟨_, _, _, some items, _, _⟩ => .sequence (itemsToData items)
  | .object ⟨id, role, answer, Option.none, shown, inspected⟩ =>
      .text (display (.object ⟨id, role, answer, Option.none, shown, inspected⟩))

def itemsToData : List Value → List Data
  | [] => []
  | item :: rest => item.toData :: itemsToData rest

def membersToData : List (String × Value) → List (Data × Data)
  | [] => []
  | (key, value) :: rest => (.text key, value.toData) :: membersToData rest

end

theorem items_to_data_eq_map (items : List Value) : itemsToData items = items.map toData := by
  induction items with
  | nil => rfl
  | cons item rest ih => rw [itemsToData, ih, List.map_cons]

theorem members_to_data_eq_map (members : List (String × Value)) :
    membersToData members = members.map fun member => (.text member.1, member.2.toData) := by
  induction members with
  | nil => rfl
  | cons member rest ih => rw [membersToData, ih, List.map_cons]

end Mustache.Value

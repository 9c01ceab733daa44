import Mustache.Data.Conversion
import Mustache.Data.External
import Mustache.Proofs.AscendingMembers

/-!
The external form of values, converted back. Of values without objects it loses nothing but the
difference between undefined and none: its conversion succeeds, asks nothing of the registry, and
comes to the value it was made from.
-/

namespace Mustache

namespace Value

/-- A value of plain data throughout, the members of its maps in order. -/
inductive ObjectFree : Value → Prop
  | undefined : ObjectFree .undefined
  | none : ObjectFree .none
  | bool (truth : Bool) : ObjectFree (.bool truth)
  | unsigned (number : UInt64) : ObjectFree (.unsigned number)
  | signed (number : Int64) : ObjectFree (.signed number)
  | float (number : Float) : ObjectFree (.float number)
  | text (content : String) : ObjectFree (.text content)
  | list {items : List Value} (below : ∀ item ∈ items, ObjectFree item) :
      ObjectFree (.list items)
  | map {members : Members Value} (ascending : members.Ascending)
      (below : ∀ member ∈ members, ObjectFree member.2) : ObjectFree (.map members)

mutual

/-- The value with none in the place of undefined, at any depth of its lists and maps. -/
def settled : Value → Value
  | .undefined => .none
  | .list items => .list (settledEach items)
  | .map members => .map (settledMembers members)
  | value => value

def settledEach : List Value → List Value
  | [] => []
  | item :: rest => item.settled :: settledEach rest

def settledMembers : List (String × Value) → List (String × Value)
  | [] => []
  | (key, value) :: rest => (key, value.settled) :: settledMembers rest

end

theorem settled_members_eq_map (members : Members Value) :
    settledMembers members = members.map fun member => (member.1, member.2.settled) := by
  induction members with
  | nil => rfl
  | cons member rest ih => rw [settledMembers, ih, List.map_cons]

theorem convert_items_to_data {items : List Value}
    (each : ∀ item ∈ items, item.toData.convert = pure item.settled) :
    Data.convertItems (itemsToData items) = pure (settledEach items) := by
  induction items with
  | nil => rfl
  | cons item rest ih =>
      obtain ⟨here, behind⟩ := List.forall_mem_cons.1 each
      simp only [itemsToData, Data.convertItems, here, ih behind, pure_bind, settledEach]

/-- Keys are text, which is converted to itself and taken as it is. -/
theorem convert_members_to_data {members before : Members Value}
    (each : ∀ member ∈ members, member.2.toData.convert = pure member.2.settled) :
    Data.convertEntries before (membersToData members) =
      pure ((settledMembers members).foldl
        (fun made member => made.insert member.1 member.2) before) := by
  induction members generalizing before with
  | nil => rfl
  | cons member rest ih =>
      obtain ⟨here, behind⟩ := List.forall_mem_cons.1 each
      simp only [membersToData, Data.convertEntries, Data.convert, here, ih behind, pure_bind,
        asKey, settledMembers, List.foldl_cons]

theorem convert_to_data {value : Value} (free : value.ObjectFree) :
    value.toData.convert = pure value.settled := by
  induction free with
  | list below each =>
      simp only [toData, Data.convert, convert_items_to_data each, pure_bind,
        settled]
  | @map members ascending below each =>
      -- the members come in order, so that inserting them one by one makes the same map
      have kept : Members.ofList (settledMembers members) = settledMembers members := by
        rw [settled_members_eq_map]
        exact Members.of_list_of_ascending (ascending.map settled)
      simp only [toData, Data.convert, convert_members_to_data each, pure_bind,
        settled]
      exact congrArg (fun made => pure (map made)) kept
  | _ => rfl

end Value

/-- Conversion undoes the external form. A value without objects comes back with every undefined
replaced by none and otherwise as it was, from any registry and leaving it as it is. -/
theorem external_form_converts_back {value : Value} (free : value.ObjectFree)
    (registry : Registry) : value.toData.toValue? registry = (.ok value.settled, registry) := by
  rw [Data.toValue?, Value.convert_to_data free, Conversion.apart_pure]

/-- Both forms of integers, and undefined in a list and in both maps. -/
theorem nested_plain_value_comes_back :
    let value : Value := .map [("", .undefined), ("a", .list [.unsigned 18446744073709551615,
      .signed (-1), .undefined, .map [("1", .text "a"), ("b", .undefined)]]), ("z", .none)]
    value.ObjectFree ∧
      value.toData.toValue? (.start "") =
        (.ok (.map [("", .none), ("a", .list [.unsigned 18446744073709551615, .signed (-1), .none,
          .map [("1", .text "a"), ("b", .none)]]), ("z", .none)]), .start "") := by
  intro value
  have inner : (Value.map [("1", .text "a"), ("b", .undefined)]).ObjectFree :=
    .map (by decide) (by simp [Value.ObjectFree.text, Value.ObjectFree.undefined])
  have items : (Value.list [.unsigned 18446744073709551615, .signed (-1), .undefined,
      .map [("1", .text "a"), ("b", .undefined)]]).ObjectFree :=
    .list (by
      simp [Value.ObjectFree.unsigned, Value.ObjectFree.signed, Value.ObjectFree.undefined, inner])
  have free : value.ObjectFree :=
    .map (by decide) (by simp [Value.ObjectFree.undefined, Value.ObjectFree.none, items])
  exact ⟨free, external_form_converts_back free (.start "")⟩

end Mustache

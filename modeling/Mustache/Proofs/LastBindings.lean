import Mustache.Proofs.AscendingMembers
import Mustache.Proofs.ReadyValues

/-!
Maps from entries of any data. Keys are told apart by what they spell, and of the entries whose
keys spell the same the last one counts. The first key or value that cannot be converted is what
the conversion fails with.
-/

namespace Mustache

open Conversion

section Members

variable {α : Type}

/-- What the names of the pairs are bound to in the members: each name to the value of its last
pair, and nothing else. -/
structure Members.Binds (members : Members α) (pairs : List (String × α)) : Prop where
  ascending : members.Ascending
  keys : ∀ name, name ∈ members.map Prod.fst ↔ name ∈ pairs.map Prod.fst
  last : ∀ before name value after, pairs = before ++ (name, value) :: after →
    (∀ pair ∈ after, pair.1 ≠ name) → members.get? name = some value

/-- The pairs of a name come in the same order, but pairs of different names need not. -/
def SameByName (pairs others : List (String × α)) : Prop :=
  ∀ name, others.filter (fun pair => pair.1 = name) = pairs.filter fun pair => pair.1 = name

namespace Members

theorem lookup_filter (name : String) (pairs : List (String × α)) :
    (pairs.filter fun pair => pair.1 = name).lookup name = pairs.lookup name := by
  induction pairs with
  | nil => rfl
  | cons pair rest ih =>
      obtain ⟨present, kept⟩ := pair
      by_cases same : present = name
      · simp [same]
      · have apart : (name == present) = false := beq_false_of_ne (Ne.symm same)
        simp [same, List.lookup_cons, apart, ih]

theorem of_list_eq_of_same_by_name {pairs others : List (String × α)}
    (same : SameByName pairs others) : ofList others = ofList pairs := by
  apply (ascending_of_list others).eq_of_get (ascending_of_list pairs)
  intro name
  rw [get_of_list_eq, get_of_list_eq, ← lookup_filter name others.reverse,
    ← lookup_filter name pairs.reverse, List.filter_reverse, List.filter_reverse, same name]

theorem mem_keys_iff (members : Members α) (name : String) :
    name ∈ members.map Prod.fst ↔ (members.get? name).isSome := by
  simp only [get?, List.lookup_isSome_iff, List.mem_map, beq_iff_eq]
  exact exists_congr fun _ => and_congr_right fun _ => eq_comm

theorem of_list_binds (pairs : List (String × α)) : (ofList pairs).Binds pairs where
  ascending := ascending_of_list pairs
  keys name := by
    have behind : name ∈ pairs.map Prod.fst ↔ name ∈ pairs.reverse.map Prod.fst := by
      rw [List.map_reverse, List.mem_reverse]
    rw [mem_keys_iff, get_of_list_eq, behind]
    exact (mem_keys_iff pairs.reverse name).symm
  last before name value after shape apart := by
    rw [shape]
    exact get_of_list apart

end Members

end Members

/-- Text spells itself, and any other value what is put out for it. -/
inductive Value.Spells : Value → String → Prop
  | text (content : String) : Spells (.text content) content
  | other {value : Value} (noText : value.text? = Option.none) : Spells value value.display

theorem Value.spells_iff {value : Value} {name : String} :
    value.Spells name ↔ value.asKey = name := by
  constructor
  · intro spells
    cases spells with
    | text => rfl
    | other noText =>
        cases value with
        | text => cases noText
        | _ => rfl
  · rintro rfl
    cases value with
    | text content => exact .text content
    | _ => exact .other rfl

namespace Data

/-- What the keys and the values are converted from, in their order. -/
def itemsOf (entries : List (Data × Data)) : List Data :=
  entries.flatMap fun entry => [entry.1, entry.2]

/-- The pairs of what the keys of the entries spell and of their values, one for each entry. -/
def Named (result : Data → Except Error Value) :
    List (Data × Data) → List (String × Value) → Prop :=
  List.Forall₂ fun entry pair =>
    ∃ key, result entry.1 = .ok key ∧ key.Spells pair.1 ∧ result entry.2 = .ok pair.2

/-- The first of the items that is not converted, and what it fails with. -/
def FirstFailure (result : Data → Except Error Value) (items : List Data) (error : Error) : Prop :=
  ∃ before item after, items = before ++ item :: after ∧
    (∀ earlier ∈ before, ∃ value, result earlier = .ok value) ∧ result item = .error error

variable {mark : String}

theorem named_iff {entries : List (Data × Data)} {pairs : List (String × Value)} :
    Named (outcome mark) entries pairs ↔ entries.mapM (entryOutcome mark) = .ok pairs := by
  rw [map_m_eq_ok_iff, Named]
  simp only [entry_outcome_eq_ok_iff, Value.spells_iff]

theorem first_failure_cons_of_ok {result : Data → Except Error Value} {item : Data} {value : Value}
    {rest : List Data} {error : Error} (converted : result item = .ok value)
    (failure : FirstFailure result rest error) : FirstFailure result (item :: rest) error := by
  obtain ⟨before, failing, after, rfl, good, bad⟩ := failure
  refine ⟨item :: before, failing, after, rfl, ?_, bad⟩
  exact List.forall_mem_cons.2 ⟨⟨value, converted⟩, good⟩

theorem first_failure_of_entries {entries : List (Data × Data)} {error : Error}
    (failed : entries.mapM (entryOutcome mark) = .error error) :
    FirstFailure (outcome mark) (itemsOf entries) error := by
  induction entries with
  | nil => cases failed
  | cons entry rest ih =>
      rw [List.mapM_cons, entryOutcome] at failed
      cases key : entry.1.outcome mark with
      | error first =>
          rw [key] at failed
          cases failed
          exact ⟨[], entry.1, entry.2 :: itemsOf rest, rfl, by simp, key⟩
      | ok named =>
          apply first_failure_cons_of_ok key
          cases value : entry.2.outcome mark with
          | error second =>
              rw [key, value] at failed
              cases failed
              exact ⟨[], entry.2, itemsOf rest, rfl, by simp, value⟩
          | ok made =>
              apply first_failure_cons_of_ok value
              cases others : rest.mapM (entryOutcome mark) with
              | error later =>
                  rw [key, value, others] at failed
                  cases failed
                  exact ih others
              | ok pairs =>
                  rw [key, value, others] at failed
                  cases failed

end Data

/-- The registry behind conversions made one after another, whatever became of them. -/
def Registry.behind (mark : String) (earlier : List Data) : Registry :=
  earlier.foldl (fun registry data => (data.toValue? registry).2) (.start mark)

theorem Registry.behind_empty (mark : String) (earlier : List Data) :
    (behind mark earlier).mark = mark ∧ (behind mark earlier).parked = [] := by
  induction earlier using List.reverseRecOn with
  | nil => exact ⟨rfl, rfl⟩
  | append_singleton before data ih =>
      obtain ⟨sameMark, empty⟩ := ih
      obtain ⟨last, made⟩ := Call.of_empty sameMark empty data
      have next : behind mark (before ++ [data]) = (Call.of data (behind mark before)).after := by
        rw [behind, List.foldl_append]
        rfl
      rw [next, made]
      exact ⟨sameMark, empty⟩

theorem Data.result_behind (mark : String) (earlier : List Data) (data : Data) :
    (data.toValue? (.behind mark earlier)).1 = data.outcome mark := by
  obtain ⟨sameMark, empty⟩ := Registry.behind_empty mark earlier
  obtain ⟨last, made⟩ := Call.of_empty sameMark empty data
  exact congrArg Call.result made

/-- Whatever has been converted before, a map of entries either comes to the last bindings of what
its keys spell, and so do the same entries in another order as long as those of one spelling keep
theirs, or fails with what the first of its keys and values fails with. -/
theorem map_keeps_last_bindings (mark : String) (earlier : List Data)
    (entries : List (Data × Data)) :
    let result (data : Data) : Except Error Value := (data.toValue? (.behind mark earlier)).1
    (∃ pairs members, Data.Named result entries pairs ∧
        result (.map entries) = .ok (.map members) ∧ Members.Binds members pairs ∧
        ∀ others otherPairs, Data.Named result others otherPairs →
          SameByName pairs otherPairs → result (.map others) = .ok (.map members)) ∨
      ∃ error, Data.FirstFailure result (Data.itemsOf entries) error ∧
        result (.map entries) = .error error := by
  intro result
  have same : result = Data.outcome mark := funext (Data.result_behind mark earlier)
  rw [same]
  cases converted : entries.mapM (Data.entryOutcome mark) with
  | ok pairs =>
      refine .inl ⟨pairs, Members.ofList pairs, Data.named_iff.2 converted, ?_,
        Members.of_list_binds pairs, ?_⟩
      · rw [Data.outcome_map, converted, Except.map]
      · intro others otherPairs named sameByName
        rw [Data.outcome_map, Data.named_iff.1 named, Except.map,
          Members.of_list_eq_of_same_by_name sameByName]
  | error error =>
      refine .inr ⟨error, Data.first_failure_of_entries converted, ?_⟩
      rw [Data.outcome_map, converted, Except.map]

/-- A number and a text spell the same, and so do what is absent and the empty text. -/
theorem keys_of_one_spelling_are_bound_once :
    let earlier : List Data := [.failing "no"]
    let entries : List (Data × Data) := [(.integer (.word (.uint8 1)), .text "a"),
      (.absent, .ready .undefined), (.text "1", .text "b"),
      (.sequence [.bool true, .text "x"], .unit), (.text "", .nested (.failing "again"))]
    let members : Members Value := [("", .undefined), ("1", .text "b"), ("true,x", .none)]
    let result (data : Data) : Except Error Value := (data.toValue? (.behind "mark" earlier)).1
    result (.map entries) = .ok (.map members) ∧
      ∃ pairs, Data.Named result entries pairs ∧ Members.Binds members pairs := by
  intro earlier entries members result
  have computed : result (.map entries) = .ok (.map members) := by cbv
  refine ⟨computed, ?_⟩
  obtain ⟨pairs, bound, named, made, binds, _⟩ | ⟨error, _, failed⟩ :=
    map_keeps_last_bindings "mark" earlier entries
  · cases computed.symm.trans made
    exact ⟨pairs, named, binds⟩
  · cases computed.symm.trans failed

end Mustache

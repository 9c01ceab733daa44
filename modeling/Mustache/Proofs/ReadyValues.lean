import Mustache.Data.Conversion
import Mustache.Proofs.AscendingMembers

/-!
Ready values in a conversion. They travel by tickets, and everything converted in between could
see the registry the tickets are kept in. It never does: whenever a part of some data is converted,
no value is parked, and so a ready value comes out as it went in, and a unit variant made by hand
redeems nothing. When the conversion has ended, or failed, only the number given out last is
another.
-/

namespace Mustache

/-- What the registry is like whenever data is about to be converted. -/
structure Registry.Clear (mark : String) (registry : Registry) : Prop where
  same_mark : registry.mark = mark
  converting : registry.converting = true
  empty : registry.parked = []

theorem Registry.Clear.counted {mark : String} {registry : Registry} (clear : registry.Clear mark)
    (last : UInt32) : Registry.Clear mark { registry with last := last } :=
  ⟨clear.same_mark, clear.converting, clear.empty⟩

namespace Conversion

variable {α β : Type} {mark : String} {conversion : Conversion α} {result : Except Error α}

theorem map_eq_ok_iff {f : α → β} {image : β} :
    result.map f = .ok image ↔ ∃ value, result = .ok value ∧ f value = image := by
  cases result <;> simp [Except.map]

theorem bind_eq_ok_iff {next : α → Except Error β} {final : β} :
    (result >>= next) = .ok final ↔ ∃ value, result = .ok value ∧ next value = .ok final := by
  cases result <;> simp [bind, Except.bind]

theorem map_m_eq_ok_iff {f : α → Except Error β} {items : List α} {values : List β} :
    items.mapM f = .ok values ↔
      List.Forall₂ (fun item value => f item = .ok value) items values := by
  induction items generalizing values with
  | nil =>
      rw [List.mapM_nil, List.forall₂_nil_left_iff]
      exact ⟨fun same => (Except.ok.inj same).symm, fun empty => congrArg _ empty.symm⟩
  | cons item rest ih =>
      rw [List.mapM_cons, List.forall₂_cons_left_iff]
      cases f item with
      | error error => simp [bind, Except.bind]
      | ok value =>
          cases others : rest.mapM f with
          | error error => simp [bind, Except.bind, ← ih, others]
          | ok found => simp [bind, Except.bind, pure, Except.pure, ← ih, others, eq_comm]

def ending (result : Except Error α) (registry : Registry) : EStateM.Result Error Registry α :=
  match result with
  | .ok value => .ok value registry
  | .error error => .error error registry

/-- From a registry with nothing parked the conversion comes to the result, whatever number was
given out last, and that number is all it changes. -/
structure Gives (mark : String) (conversion : Conversion α) (result : Except Error α) : Prop where
  runs : ∀ registry : Registry, registry.Clear mark →
    ∃ last, conversion registry = ending result { registry with last := last }
  refusal : ∀ error, result = .error error → error.kind = .badSerialization

theorem Gives.clear_of_ok (gives : Gives mark conversion result) {before after : Registry}
    (clear : before.Clear mark) {value : α} (run : conversion before = .ok value after) :
    after.Clear mark := by
  obtain ⟨last, runs⟩ := gives.runs before clear
  rw [run] at runs
  cases result with
  | ok =>
      cases runs
      exact clear.counted last
  | error => cases runs

theorem gives_pure (value : α) : Gives mark (pure value) (.ok value) := by
  refine ⟨fun registry _ => ⟨registry.last, rfl⟩, ?_⟩
  intro error failed
  cases failed

theorem gives_throw {error : Error} (refused : error.kind = .badSerialization) :
    Gives mark (throw error : Conversion α) (.error error) := by
  refine ⟨fun registry _ => ⟨registry.last, rfl⟩, ?_⟩
  intro other failed
  cases failed
  exact refused

theorem gives_bind {next : α → Conversion β} {after : α → Except Error β}
    (first : Gives mark conversion result)
    (second : ∀ value, Gives mark (next value) (after value)) :
    Gives mark (conversion >>= next) (result >>= after) := by
  cases result with
  | error error =>
      have same : (Except.error error >>= after) = .error error := rfl
      rw [same]
      refine ⟨fun registry clear => ?_, fun other failed => ?_⟩
      · obtain ⟨last, runs⟩ := first.runs registry clear
        exact ⟨last, by simp only [bind, EStateM.bind, runs, ending]⟩
      · cases failed
        exact first.refusal error rfl
  | ok value =>
      refine ⟨fun registry clear => ?_, (second value).refusal⟩
      obtain ⟨last, runs⟩ := first.runs registry clear
      obtain ⟨final, goesOn⟩ := (second value).runs _ (clear.counted last)
      exact ⟨final, by simp only [bind, EStateM.bind, runs, ending, goesOn, Except.bind]⟩

/-- The value is parked where nothing is, and taken out again at once. -/
theorem gives_ready (value : Value) : Gives mark (ready value) (.ok value) := by
  refine ⟨fun registry clear => ⟨registry.last + 1, ?_⟩, by simp⟩
  obtain ⟨sameMark, converting, last, parked⟩ := registry
  obtain ⟨_, _, rfl⟩ := clear
  simp [ready, variant, Registry.park, Registry.redeem, ending]

theorem variant_of_mark {registry : Registry} (clear : registry.Clear mark) (index : UInt32) :
    variant mark index mark registry = .error unknownTicket registry := by
  obtain ⟨sameMark, converting, last, parked⟩ := registry
  obtain ⟨rfl, _, rfl⟩ := clear
  simp [variant, Registry.redeem]

theorem gives_variant (name : String) (index : UInt32) (chosen : String) :
    Gives mark (variant name index chosen)
      (if name = mark ∧ chosen = mark then .error unknownTicket else .ok (.text chosen)) := by
  split
  next both =>
    obtain ⟨rfl, rfl⟩ := both
    refine ⟨fun registry clear => ⟨registry.last, variant_of_mark clear index⟩, ?_⟩
    intro error failed
    cases failed
    rfl
  next other =>
    refine ⟨fun registry clear => ⟨registry.last, ?_⟩, by simp⟩
    rw [← clear.same_mark] at other
    exact if_neg other

theorem gives_mode : Gives mark Data.mode.convert (.ok (.text "internal")) := by
  refine ⟨fun registry clear => ⟨registry.last, ?_⟩, by simp⟩
  obtain ⟨sameMark, converting, last, parked⟩ := registry
  obtain ⟨_, rfl, _⟩ := clear
  rfl

/-- A conversion of its own leaves it told as before whether one is under way: it is told to be
throughout, and so still is behind it, where it was before. -/
theorem Gives.apart {conversion : Conversion Value} {result : Except Error Value}
    (gives : Gives mark conversion result) {registry : Registry} (sameMark : registry.mark = mark)
    (empty : registry.parked = []) :
    ∃ last, apart conversion registry = (result, { registry with last := last }) := by
  have entered : Registry.Clear mark { registry with converting := true } :=
    ⟨sameMark, rfl, empty⟩
  obtain ⟨last, runs⟩ := gives.runs _ entered
  refine ⟨last, ?_⟩
  obtain ⟨_, converting, _, _⟩ := registry
  rw [Conversion.apart, runs]
  cases converting <;> cases result <;> rfl

/-- A conversion within another finds the registry as the outer one does, and leaves it so. -/
theorem gives_nested {data : Data} {result : Except Error Value}
    (gives : Gives mark data.convert result) :
    Gives mark (Data.nested data).convert (.ok (lenient result)) := by
  refine ⟨fun registry clear => ?_, by simp⟩
  obtain ⟨last, behind⟩ := gives.apart clear.same_mark clear.empty
  obtain ⟨final, goesOn⟩ := (gives_ready (lenient result)).runs _ (clear.counted last)
  exact ⟨final, by simp only [Data.convert, behind, goesOn]⟩

end Conversion

open Conversion

namespace Data

mutual

/-- What data comes to depends on nothing in the registry. The cases are those of conversion. -/
theorem exists_gives (mark : String) : ∀ data : Data, ∃ result, Gives mark data.convert result
  | .unit | .absent | .namedUnit | .bool _ | .integer _ | .float32 _ | .float64 _ | .char _
  | .text _ | .bytes _ => ⟨_, gives_pure _⟩
  | .present data | .wrapped data => exists_gives mark data
  | .choice name index variant => ⟨_, gives_variant name index variant⟩
  | .choiceOf _ data =>
      have ⟨_, gives⟩ := exists_gives mark data
      ⟨_, gives_bind gives fun _ => gives_pure _⟩
  | .sequence items | .choiceOfItems _ items =>
      have ⟨_, gives⟩ := items_give mark items
      ⟨_, gives_bind gives fun _ => gives_pure _⟩
  | .map entries =>
      have ⟨_, gives⟩ := entries_give mark entries []
      ⟨_, gives_bind gives fun _ => gives_pure _⟩
  | .record fields | .choiceOfFields _ fields =>
      have ⟨_, gives⟩ := fields_give mark fields []
      ⟨_, gives_bind gives fun _ => gives_pure _⟩
  | .ready value => ⟨_, gives_ready value⟩
  | .failing _ | .keyless _ => ⟨_, gives_throw rfl⟩
  | .mode => ⟨_, gives_mode⟩
  | .nested data =>
      have ⟨_, gives⟩ := exists_gives mark data
      ⟨_, gives_nested gives⟩

theorem items_give (mark : String) :
    ∀ items : List Data, ∃ result, Gives mark (convertItems items) result
  | [] => ⟨_, gives_pure _⟩
  | item :: rest =>
      have ⟨_, gives⟩ := exists_gives mark item
      have ⟨_, others⟩ := items_give mark rest
      ⟨_, gives_bind gives fun _ => gives_bind others fun _ => gives_pure _⟩

theorem entries_give (mark : String) :
    ∀ (entries : List (Data × Data)) (members : Members Value),
      ∃ result, Gives mark (convertEntries members entries) result
  | [], _ => ⟨_, gives_pure _⟩
  | (key, data) :: rest, members =>
      have ⟨_, givesKey⟩ := exists_gives mark key
      have ⟨_, gives⟩ := exists_gives mark data
      have others (key value : Value) := entries_give mark rest (members.insert key.asKey value)
      ⟨_, gives_bind givesKey fun key =>
        gives_bind gives fun value => (others key value).choose_spec⟩

theorem fields_give (mark : String) :
    ∀ (fields : List (String × Data)) (members : Members Value),
      ∃ result, Gives mark (convertFields members fields) result
  | [], _ => ⟨_, gives_pure _⟩
  | (name, data) :: rest, members =>
      have ⟨_, gives⟩ := exists_gives mark data
      have others (value : Value) := fields_give mark rest (members.insert name value)
      ⟨_, gives_bind gives fun value => (others value).choose_spec⟩

end

/-- What a call with the data comes to that is the first there is. -/
def outcome (mark : String) (data : Data) : Except Error Value :=
  (data.toValue? (.start mark)).1

variable {mark : String}

theorem outcome_eq {data : Data} {result : Except Error Value}
    (gives : Gives mark data.convert result) : data.outcome mark = result := by
  obtain ⟨last, behind⟩ := @Gives.apart _ _ _ gives (.start mark) rfl rfl
  rw [outcome, toValue?, behind]

theorem gives_outcome (mark : String) (data : Data) :
    Gives mark data.convert (data.outcome mark) := by
  obtain ⟨result, gives⟩ := exists_gives mark data
  rwa [outcome_eq gives]

theorem outcome_ready (value : Value) : (ready value).outcome mark = .ok value :=
  outcome_eq (gives_ready value)

theorem outcome_choice (name : String) (index : UInt32) (variant : String) :
    (choice name index variant).outcome mark =
      if name = mark ∧ variant = mark then .error unknownTicket else .ok (.text variant) :=
  outcome_eq (gives_variant name index variant)

theorem outcome_nested (data : Data) :
    (nested data).outcome mark = .ok (lenient (data.outcome mark)) :=
  outcome_eq (gives_nested (gives_outcome mark data))

theorem outcome_choice_of (variant : String) (data : Data) :
    (choiceOf variant data).outcome mark =
      (data.outcome mark).map fun value => .map [(variant, value)] :=
  outcome_eq (gives_bind (gives_outcome mark data) fun _ => gives_pure _)

/-- An entry by its key and its value. -/
def entryOutcome (mark : String) (entry : Data × Data) : Except Error (String × Value) := do
  let key ← entry.1.outcome mark
  let value ← entry.2.outcome mark
  return (key.asKey, value)

def insertAll (members : Members Value) (pairs : List (String × Value)) : Members Value :=
  pairs.foldl (fun members pair => members.insert pair.1 pair.2) members

theorem gives_items (items : List Data) :
    Gives mark (convertItems items) (items.mapM (outcome mark)) := by
  induction items with
  | nil => exact gives_pure []
  | cons item rest ih =>
      rw [List.mapM_cons, convertItems]
      exact gives_bind (gives_outcome mark item) fun _ => gives_bind ih fun _ => gives_pure _

theorem gives_entries (entries : List (Data × Data)) (members : Members Value) :
    Gives mark (convertEntries members entries)
      ((entries.mapM (entryOutcome mark)).map (insertAll members)) := by
  induction entries generalizing members with
  | nil => exact gives_pure members
  | cons entry rest ih =>
      have step : ((entry :: rest).mapM (entryOutcome mark)).map (insertAll members) =
          (entry.1.outcome mark >>= fun key => entry.2.outcome mark >>= fun value =>
            (rest.mapM (entryOutcome mark)).map
              (insertAll (members.insert key.asKey value))) := by
        rw [List.mapM_cons, entryOutcome]
        cases entry.1.outcome mark <;> cases entry.2.outcome mark <;>
          cases rest.mapM (entryOutcome mark) <;> rfl
      rw [step, convertEntries]
      exact gives_bind (gives_outcome mark entry.1) fun _ =>
        gives_bind (gives_outcome mark entry.2) fun _ => ih _

theorem outcome_sequence (items : List Data) :
    (sequence items).outcome mark = (items.mapM (outcome mark)).map .list :=
  outcome_eq (gives_bind (gives_items items) fun _ => gives_pure _)

theorem outcome_map (entries : List (Data × Data)) :
    (map entries).outcome mark =
      (entries.mapM (entryOutcome mark)).map fun pairs => .map (Members.ofList pairs) := by
  have gives : Gives mark (map entries).convert _ :=
    gives_bind (gives_entries entries []) fun _ => gives_pure _
  rw [outcome_eq gives]
  cases entries.mapM (entryOutcome mark) <;> rfl

/-- A field is an entry whose key is text. -/
def entryOfField (field : String × Data) : Data × Data := (.text field.1, field.2)

theorem fields_as_entries (members : Members Value) (fields : List (String × Data)) :
    convertFields members fields = convertEntries members (fields.map entryOfField) := by
  induction fields generalizing members with
  | nil => rfl
  | cons field rest ih =>
      simp only [convertFields, List.map_cons, convertEntries, entryOfField, convert, pure_bind,
        Value.asKey, ih]

theorem outcome_of_same {data other : Data} (same : data.convert = other.convert) :
    data.outcome mark = other.outcome mark := by
  rw [outcome, outcome, toValue?, toValue?, same]

theorem outcome_record (fields : List (String × Data)) :
    (record fields).outcome mark = (map (fields.map entryOfField)).outcome mark := by
  apply outcome_of_same
  rw [convert, convert, fields_as_entries]

theorem outcome_choice_of_items (variant : String) (items : List Data) :
    (choiceOfItems variant items).outcome mark =
      (choiceOf variant (sequence items)).outcome mark := by
  apply outcome_of_same
  simp only [convert, bind_assoc, pure_bind]

theorem outcome_choice_of_fields (variant : String) (fields : List (String × Data)) :
    (choiceOfFields variant fields).outcome mark =
      (choiceOf variant (record fields)).outcome mark := by
  apply outcome_of_same
  simp only [convert, bind_assoc, pure_bind]

end Data

/-! ### Places -/

/-- A step from a value to one right within it. -/
inductive Step
  | item (index : Nat)
  | member (key : String)

def Value.at? : List Step → Value → Option Value
  | [], value => some value
  | .item index :: path, .list items => items[index]?.bind (at? path)
  | .member key :: path, .map members => (Members.get? key members).bind (at? path)
  | _, _ => Option.none

namespace Data

/-- The data bears the ready value at the place of its value. Of entries with one key only the last
has a place, and what is converted on its own has one if there is no failure in it. -/
inductive Bears (mark : String) : Data → List Step → Value → Prop
  | ready (value : Value) : Bears mark (.ready value) [] value
  | present {data : Data} {path : List Step} {value : Value} (below : Bears mark data path value) :
      Bears mark (.present data) path value
  | wrapped {data : Data} {path : List Step} {value : Value} (below : Bears mark data path value) :
      Bears mark (.wrapped data) path value
  | choiceOf {variant : String} {data : Data} {path : List Step} {value : Value}
      (below : Bears mark data path value) :
      Bears mark (.choiceOf variant data) (.member variant :: path) value
  | sequence {items : List Data} {index : Nat} {item : Data} {path : List Step} {value : Value}
      (found : items[index]? = some item) (below : Bears mark item path value) :
      Bears mark (.sequence items) (.item index :: path) value
  | choiceOfItems {variant : String} {items : List Data} {path : List Step} {value : Value}
      (below : Bears mark (.sequence items) path value) :
      Bears mark (.choiceOfItems variant items) (.member variant :: path) value
  | map {before after : List (Data × Data)} {key data : Data} {named : Value} {path : List Step}
      {value : Value} (names : key.outcome mark = .ok named)
      (last : ∀ entry ∈ after, ∀ other, entry.1.outcome mark = .ok other →
        other.asKey ≠ named.asKey)
      (below : Bears mark data path value) :
      Bears mark (.map (before ++ (key, data) :: after)) (.member named.asKey :: path) value
  | record {before after : List (String × Data)} {name : String} {data : Data}
      {path : List Step} {value : Value} (last : ∀ field ∈ after, field.1 ≠ name)
      (below : Bears mark data path value) :
      Bears mark (.record (before ++ (name, data) :: after)) (.member name :: path) value
  | choiceOfFields {variant : String} {fields : List (String × Data)} {path : List Step}
      {value : Value} (below : Bears mark (.record fields) path value) :
      Bears mark (.choiceOfFields variant fields) (.member variant :: path) value
  | nested {data : Data} {whole : Value} {path : List Step} {value : Value}
      (succeeds : data.outcome mark = .ok whole) (below : Bears mark data path value) :
      Bears mark (.nested data) path value

section Places

variable {mark : String}

theorem entry_outcome_eq_ok_iff {entry : Data × Data} {pair : String × Value} :
    entryOutcome mark entry = .ok pair ↔
      ∃ named, entry.1.outcome mark = .ok named ∧ named.asKey = pair.1 ∧
        entry.2.outcome mark = .ok pair.2 := by
  obtain ⟨key, value⟩ := pair
  rw [entryOutcome]
  cases entry.1.outcome mark <;> cases entry.2.outcome mark <;>
    simp [bind, Except.bind, pure, Except.pure]

theorem member_of_map {before after : List (Data × Data)} {key data : Data} {named whole : Value}
    (names : key.outcome mark = .ok named)
    (last : ∀ entry ∈ after, ∀ other, entry.1.outcome mark = .ok other →
      other.asKey ≠ named.asKey)
    (made : (map (before ++ (key, data) :: after)).outcome mark = .ok whole) :
    ∃ members value, whole = .map members ∧ Members.get? named.asKey members = some value ∧
      data.outcome mark = .ok value := by
  rw [outcome_map, map_eq_ok_iff] at made
  obtain ⟨pairs, each, rfl⟩ := made
  simp only [List.mapM_append, List.mapM_cons, bind_eq_ok_iff] at each
  obtain ⟨earlier, _, _, ⟨pair, here, later, others, shape⟩, shapeWhole⟩ := each
  obtain rfl := Except.ok.inj shape
  obtain rfl := Except.ok.inj shapeWhole
  obtain ⟨same, sameNamed, sameKey, converted⟩ := entry_outcome_eq_ok_iff.1 here
  obtain rfl : named = same := Except.ok.inj (names.symm.trans sameNamed)
  refine ⟨_, pair.2, rfl, ?_, converted⟩
  rw [sameKey]
  refine Members.get_of_list ?_
  intro other among
  obtain ⟨index, inside, rfl⟩ := List.mem_iff_getElem.1 among
  obtain ⟨sameLength, pointwise⟩ := List.forall₂_iff_get.1 (map_m_eq_ok_iff.1 others)
  have fromEntry := pointwise index (sameLength ▸ inside) inside
  obtain ⟨otherNamed, namesOther, otherKey, _⟩ := entry_outcome_eq_ok_iff.1 fromEntry
  have apart := last _ (List.get_mem ..) otherNamed namesOther
  rwa [otherKey, sameKey] at apart

theorem item_of_sequence {items : List Data} {index : Nat} {item : Data} {whole : Value}
    (found : items[index]? = some item) (made : (sequence items).outcome mark = .ok whole) :
    ∃ values value, whole = .list values ∧ values[index]? = some value ∧
      item.outcome mark = .ok value := by
  rw [outcome_sequence, map_eq_ok_iff] at made
  obtain ⟨values, each, rfl⟩ := made
  obtain ⟨sameLength, pointwise⟩ := List.forall₂_iff_get.1 (map_m_eq_ok_iff.1 each)
  obtain ⟨inside, rfl⟩ := List.getElem?_eq_some_iff.1 found
  have insideValues : index < values.length := sameLength ▸ inside
  exact ⟨values, values[index], rfl, List.getElem?_eq_getElem insideValues,
    pointwise index inside insideValues⟩

theorem at_choice {variant : String} {data : Data} {path : List Step} {value whole : Value}
    (below : ∀ {whole}, data.outcome mark = .ok whole → whole.at? path = some value)
    (made : (choiceOf variant data).outcome mark = .ok whole) :
    whole.at? (.member variant :: path) = some value := by
  rw [outcome_choice_of, map_eq_ok_iff] at made
  obtain ⟨inner, converted, rfl⟩ := made
  simpa [Value.at?, Members.get?] using below converted

/-- A ready value is found in the result of a conversion as it was in the data. -/
theorem at_of_bears {data : Data} {path : List Step} {value whole : Value}
    (bears : data.Bears mark path value) (made : data.outcome mark = .ok whole) :
    whole.at? path = some value := by
  induction bears generalizing whole with
  | ready value =>
      rw [outcome_ready] at made
      cases made
      rfl
  | present _ ih | wrapped _ ih => exact ih made
  | choiceOf _ ih => exact at_choice ih made
  | sequence found _ ih =>
      obtain ⟨values, inner, rfl, there, converted⟩ := item_of_sequence found made
      simpa [Value.at?, there] using ih converted
  | choiceOfItems _ ih =>
      rw [outcome_choice_of_items] at made
      exact at_choice ih made
  | map names last _ ih =>
      obtain ⟨members, inner, rfl, there, converted⟩ := member_of_map names last made
      simpa [Value.at?, there] using ih converted
  | @record before after name data path value last _ ih =>
      rw [outcome_record, List.map_append, List.map_cons] at made
      have texts (name : String) : (Data.text name).outcome mark = .ok (.text name) :=
        outcome_eq (gives_pure _)
      have lastEntry : ∀ entry ∈ after.map entryOfField, ∀ other,
          entry.1.outcome mark = .ok other → other.asKey ≠ (Value.text name).asKey := by
        intro entry among other namesOther
        obtain ⟨field, amongFields, rfl⟩ := List.mem_map.1 among
        cases (texts field.1).symm.trans namesOther
        exact last field amongFields
      obtain ⟨members, inner, rfl, there, converted⟩ :=
        member_of_map (texts name) lastEntry made
      have found : Members.get? name members = some inner := there
      simpa [Value.at?, found] using ih converted
  | choiceOfFields _ ih =>
      rw [outcome_choice_of_fields] at made
      exact at_choice ih made
  | nested succeeds _ ih =>
      rw [outcome_nested, succeeds] at made
      cases made
      exact ih succeeds

end Places

/-- To convert the data from the first state is to convert the part, by and by, from the second.
What stands before the part has been converted by then, on the way to it or in calls of its own. -/
inductive Meets : Data → Registry → Data → Registry → Prop
  | here (data : Data) (state : Registry) : Meets data state data state
  | present {data part : Data} {state later : Registry} (on : Meets data state part later) :
      Meets (.present data) state part later
  | wrapped {data part : Data} {state later : Registry} (on : Meets data state part later) :
      Meets (.wrapped data) state part later
  | choiceOf {variant : String} {data part : Data} {state later : Registry}
      (on : Meets data state part later) : Meets (.choiceOf variant data) state part later
  | sequence {before after : List Data} {item part : Data} {state between later : Registry}
      {values : List Value} (run : convertItems before state = .ok values between)
      (on : Meets item between part later) :
      Meets (.sequence (before ++ item :: after)) state part later
  | choiceOfItems {variant : String} {items : List Data} {part : Data} {state later : Registry}
      (on : Meets (.sequence items) state part later) :
      Meets (.choiceOfItems variant items) state part later
  | key {before after : List (Data × Data)} {key data part : Data}
      {state between later : Registry} {members : Members Value}
      (run : convertEntries [] before state = .ok members between)
      (on : Meets key between part later) :
      Meets (.map (before ++ (key, data) :: after)) state part later
  | entry {before after : List (Data × Data)} {key data part : Data}
      {state between named later : Registry} {members : Members Value} {name : Value}
      (run : convertEntries [] before state = .ok members between)
      (runKey : key.convert between = .ok name named) (on : Meets data named part later) :
      Meets (.map (before ++ (key, data) :: after)) state part later
  | record {before after : List (String × Data)} {name : String} {data part : Data}
      {state between later : Registry} {members : Members Value}
      (run : convertFields [] before state = .ok members between)
      (on : Meets data between part later) :
      Meets (.record (before ++ (name, data) :: after)) state part later
  | choiceOfFields {variant : String} {fields : List (String × Data)} {part : Data}
      {state later : Registry} (on : Meets (.record fields) state part later) :
      Meets (.choiceOfFields variant fields) state part later
  | nested {data part : Data} {state later : Registry}
      (on : Meets data { state with converting := true } part later) :
      Meets (.nested data) state part later

/-- Nothing is parked whenever a part of the data is about to be converted. -/
theorem clear_of_meets {mark : String} {data part : Data} {state later : Registry}
    (meets : data.Meets state part later) (clear : state.Clear mark) : later.Clear mark := by
  induction meets with
  | here => exact clear
  | present _ ih | wrapped _ ih | choiceOf _ ih | choiceOfItems _ ih | choiceOfFields _ ih =>
      exact ih clear
  | sequence run _ ih => exact ih ((gives_items _).clear_of_ok clear run)
  | key run _ ih => exact ih ((gives_entries _ _).clear_of_ok clear run)
  | entry run runKey _ ih =>
      have between := (gives_entries _ _).clear_of_ok clear run
      exact ih ((gives_outcome mark _).clear_of_ok between runKey)
  | record run _ ih =>
      rw [fields_as_entries] at run
      exact ih ((gives_entries _ _).clear_of_ok clear run)
  | nested _ ih => exact ih ⟨clear.same_mark, rfl, clear.empty⟩

/-- The part stands in the data, and is converted in the same call. -/
inductive Within (part : Data) : Data → Prop
  | here : Within part part
  | present {data : Data} (within : Within part data) : Within part (.present data)
  | wrapped {data : Data} (within : Within part data) : Within part (.wrapped data)
  | choiceOf {variant : String} {data : Data} (within : Within part data) :
      Within part (.choiceOf variant data)
  | sequence {items : List Data} {item : Data} (among : item ∈ items) (within : Within part item) :
      Within part (.sequence items)
  | choiceOfItems {variant : String} {items : List Data} (within : Within part (.sequence items)) :
      Within part (.choiceOfItems variant items)
  | key {entries : List (Data × Data)} {entry : Data × Data} (among : entry ∈ entries)
      (within : Within part entry.1) : Within part (.map entries)
  | entry {entries : List (Data × Data)} {entry : Data × Data} (among : entry ∈ entries)
      (within : Within part entry.2) : Within part (.map entries)
  | record {fields : List (String × Data)} {field : String × Data} (among : field ∈ fields)
      (within : Within part field.2) : Within part (.record fields)
  | choiceOfFields {variant : String} {fields : List (String × Data)}
      (within : Within part (.record fields)) : Within part (.choiceOfFields variant fields)
  | keyless {data : Data} (within : Within part data) : Within part (.keyless data)

section Refusals

variable {mark : String}

theorem item_converted {items : List Data} {item : Data} {whole : Value} (among : item ∈ items)
    (made : (sequence items).outcome mark = .ok whole) :
    ∃ value, item.outcome mark = .ok value := by
  obtain ⟨index, found⟩ := List.mem_iff_getElem?.1 among
  obtain ⟨_, value, _, _, converted⟩ := item_of_sequence found made
  exact ⟨value, converted⟩

theorem entry_converted {entries : List (Data × Data)} {entry : Data × Data} {whole : Value}
    (among : entry ∈ entries) (made : (map entries).outcome mark = .ok whole) :
    (∃ named, entry.1.outcome mark = .ok named) ∧ ∃ value, entry.2.outcome mark = .ok value := by
  rw [outcome_map, map_eq_ok_iff] at made
  obtain ⟨pairs, each, _⟩ := made
  obtain ⟨sameLength, pointwise⟩ := List.forall₂_iff_get.1 (map_m_eq_ok_iff.1 each)
  obtain ⟨index, inside, rfl⟩ := List.mem_iff_getElem.1 among
  have converted := pointwise index inside (sameLength ▸ inside)
  obtain ⟨named, names, _, value⟩ := entry_outcome_eq_ok_iff.1 converted
  exact ⟨⟨named, names⟩, _, value⟩

theorem choice_converted {variant : String} {data : Data} {whole : Value}
    (made : (choiceOf variant data).outcome mark = .ok whole) :
    ∃ value, data.outcome mark = .ok value := by
  rw [outcome_choice_of, map_eq_ok_iff] at made
  obtain ⟨value, converted, _⟩ := made
  exact ⟨value, converted⟩

/-- A call that succeeds has converted everything in its data. -/
theorem Within.converted {part data : Data} (within : part.Within data) {whole : Value}
    (made : data.outcome mark = .ok whole) : ∃ value, part.outcome mark = .ok value := by
  induction within generalizing whole with
  | here => exact ⟨whole, made⟩
  | present _ ih | wrapped _ ih => exact ih made
  | choiceOf _ ih =>
      obtain ⟨_, converted⟩ := choice_converted made
      exact ih converted
  | sequence among _ ih =>
      obtain ⟨_, converted⟩ := item_converted among made
      exact ih converted
  | choiceOfItems _ ih =>
      rw [outcome_choice_of_items] at made
      obtain ⟨_, converted⟩ := choice_converted made
      exact ih converted
  | key among _ ih =>
      obtain ⟨⟨_, converted⟩, _⟩ := entry_converted among made
      exact ih converted
  | entry among _ ih =>
      obtain ⟨_, _, converted⟩ := entry_converted among made
      exact ih converted
  | record among _ ih =>
      rw [outcome_record] at made
      obtain ⟨_, _, converted⟩ := entry_converted (List.mem_map_of_mem among) made
      exact ih converted
  | choiceOfFields _ ih =>
      rw [outcome_choice_of_fields] at made
      obtain ⟨_, converted⟩ := choice_converted made
      exact ih converted
  | keyless => cases made

end Refusals

end Data

/-! ### Calls one after another -/

/-- A call that converts data, between what the registry is before it and behind it. -/
structure Call where
  data : Data
  before : Registry
  result : Except Error Value
  after : Registry

namespace Call

def of (data : Data) (registry : Registry) : Call :=
  let (result, after) := data.toValue? registry
  ⟨data, registry, result, after⟩

def inTurn (registry : Registry) : List Data → List Call
  | [] => []
  | data :: rest => of data registry :: inTurn (of data registry).after rest

/-- A unit variant that has the mark for both its names, as only tickets do. -/
def forged (mark : String) (index : UInt32) : Data := .choice mark index mark

/-- In the course of the call the part is converted from the state. -/
def Comes (call : Call) (part : Data) (state : Registry) : Prop :=
  call.data.Meets { call.before with converting := true } part state

/-- Ready values come out of the call as they went in, forged variants are refused, and behind the
call nothing is left of it. -/
structure Traceless (mark : String) (call : Call) : Prop where
  restores : call.after.converting = call.before.converting
  empties : call.after.parked = []
  /-- What the calls before did makes no difference. -/
  alone : call.result = call.data.outcome mark
  clear : ∀ part state, call.Comes part state → state.Clear mark
  keeps : ∀ value state, call.Comes (.ready value) state →
    ∃ last, (Data.ready value).convert state = .ok value { state with last := last }
  survive : ∀ whole, call.result = .ok whole → ∀ path value,
    call.data.Bears mark path value → whole.at? path = some value
  refuses : ∀ index state, call.Comes (forged mark index) state →
    (forged mark index).convert state = .error unknownTicket state
  fails : ∀ index, (forged mark index).Within call.data →
    ∃ error, call.result = .error error ∧ error.kind = .badSerialization

variable {mark : String} {registry : Registry}

/-- A call on a registry with nothing parked comes to what the same call comes to as the first
there is. -/
theorem of_empty (sameMark : registry.mark = mark) (empty : registry.parked = []) (data : Data) :
    ∃ last, of data registry =
      ⟨data, registry, data.outcome mark, { registry with last := last }⟩ := by
  obtain ⟨last, behind⟩ := (Data.gives_outcome mark data).apart sameMark empty
  exact ⟨last, by rw [of, Data.toValue?, behind]⟩

theorem traceless_of_empty (sameMark : registry.mark = mark) (empty : registry.parked = [])
    (data : Data) : (of data registry).Traceless mark := by
  obtain ⟨last, made⟩ := of_empty sameMark empty data
  have clear {part : Data} {state : Registry}
      (comes : data.Meets { registry with converting := true } part state) : state.Clear mark :=
    Data.clear_of_meets comes ⟨sameMark, rfl, empty⟩
  rw [made]
  refine ⟨rfl, empty, rfl, fun _ _ => clear, fun value _ comes => ?_, ?_, fun index _ comes => ?_,
    fun index within => ?_⟩
  · exact (gives_ready value).runs _ (clear comes)
  · intro whole converted path value bears
    exact Data.at_of_bears bears converted
  · exact variant_of_mark (clear comes) index
  · have refused : (forged mark index).outcome mark = .error unknownTicket := by
      rw [forged, Data.outcome_choice, if_pos ⟨rfl, rfl⟩]
    cases result : data.outcome mark with
    | ok whole =>
        obtain ⟨_, converted⟩ := within.converted result
        rw [refused] at converted
        cases converted
    | error error => exact ⟨error, rfl, (Data.gives_outcome mark data).refusal error result⟩

end Call

/-- Calls one after another, on data of every kind and from whatever number was given out last. -/
theorem ready_values_survive_without_trace (registry : Registry) (empty : registry.parked = [])
    (data : List Data) :
    ∀ call ∈ Call.inTurn registry data, call.Traceless registry.mark := by
  generalize sameMark : registry.mark = mark
  induction data generalizing registry with
  | nil => simp [Call.inTurn]
  | cons first rest ih =>
      refine List.forall_mem_cons.2 ⟨Call.traceless_of_empty sameMark empty first, ?_⟩
      obtain ⟨last, made⟩ := Call.of_empty sameMark empty first
      rw [made]
      exact ih _ empty sameMark

/-- The numbers wrap around at the first value. A forged variant makes the call on its own undefined
and the second call fail. -/
theorem forged_variant_redeems_nothing :
    let registry : Registry := ⟨"mark", false, 4294967295, []⟩
    let object : Value := .object ⟨7, .plain, fun _ _ => none, none, some "seven", "Seven"⟩
    let data : List Data :=
      [.sequence [.ready object, .nested (Call.forged "mark" 0), .ready .undefined],
        .present (Call.forged "mark" 3)]
    registry.parked = [] ∧
      (Call.inTurn registry data).map Call.result =
        [.ok (.list [object, .undefined, .undefined]), .error unknownTicket] ∧
      ∀ call ∈ Call.inTurn registry data, call.Traceless registry.mark := by
  intro registry object data
  have empty : registry.parked = [] := rfl
  refine ⟨empty, by cbv, ready_values_survive_without_trace registry empty data⟩

end Mustache

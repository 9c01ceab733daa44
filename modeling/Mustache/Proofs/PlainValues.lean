import Mustache.Data.Conversion
import Mustache.Data.Plain
import Mustache.Proofs.AscendingMembers

/-!
Plain data is built into values directly, or converted as any data is. Conversion takes a way of
its own for every shape: it goes through a registry, it could fail, and it spells the keys of maps.
On plain data it comes to the value that is built directly, node by node.
-/

namespace Mustache

namespace Conversion

variable {α β : Type}

/-- From every registry the conversion comes to the value. -/
def Yields (conversion : Conversion α) (value : α) : Prop :=
  ∀ registry, ∃ after, conversion registry = .ok value after

theorem yields_pure (value : α) : Yields (pure value) value := fun registry => ⟨registry, rfl⟩

theorem yields_bind {conversion : Conversion α} {next : α → Conversion β} {value : α} {final : β}
    (first : Yields conversion value) (second : Yields (next value) final) :
    Yields (conversion >>= next) final := by
  intro registry
  obtain ⟨between, runs⟩ := first registry
  obtain ⟨after, goesOn⟩ := second between
  exact ⟨after, by simp only [bind, EStateM.bind, runs, goesOn]⟩

/-- What was parked last is what its ticket redeems, whatever else is parked. -/
theorem yields_ready (value : Value) : Yields (ready value) value := by
  intro registry
  have redeemed : (registry.park value).2.parked.lookup (registry.park value).1 = some value :=
    List.lookup_cons_self
  refine ⟨((registry.park value).2.redeem (registry.park value).1).2, ?_⟩
  simp only [ready, variant, and_self, if_true, Registry.redeem, redeemed]

end Conversion

/-- A carrier of at most 64 bits becomes the same integer on both ways. -/
theorem Word.to_value_eq_convert (word : Word) : word.toValue = (Integer.word word).convert := by
  cases word <;> rfl

namespace Plain

open Conversion

mutual

/-- The plain data as data of any shape: carriers, texts and options as such, lists as sequences,
and maps with keys that are text. -/
def toData : Plain → Data
  | .unit => .unit
  | .bool truth => .bool truth
  | .word number => .integer (.word number)
  | .float32 number => .float32 number
  | .float64 number => .float64 number
  | .char c => .char c
  | .text content => .text content
  | .absent => .absent
  | .present plain => .present plain.toData
  | .list items => .sequence (itemsToData items)
  | .map entries => .map (entriesToData entries)
  | .ready value => .ready value

def itemsToData : List Plain → List Data
  | [] => []
  | item :: rest => item.toData :: itemsToData rest

def entriesToData : List (String × Plain) → List (Data × Data)
  | [] => []
  | (key, plain) :: rest => (.text key, plain.toData) :: entriesToData rest

end

mutual

/-- By recursion over the nesting: each shape is converted to what is built of it directly. -/
theorem yields_to_value : ∀ plain : Plain, Yields plain.toData.convert plain.toValue
  | .unit | .absent | .bool _ | .float32 _ | .float64 _ | .char _ | .text _ => yields_pure _
  | .word number => by
      rw [toData, toValue, Word.to_value_eq_convert]
      exact yields_pure _
  | .present plain => yields_to_value plain
  | .list items => by
      rw [toData, toValue, Data.convert]
      exact yields_bind (items_yield items) (yields_pure _)
  | .map entries => by
      rw [toData, toValue, Data.convert]
      exact yields_bind (entries_yield entries []) (yields_pure _)
  | .ready value => yields_ready value

theorem items_yield :
    ∀ items : List Plain, Yields (Data.convertItems (itemsToData items)) (itemsToValues items)
  | [] => yields_pure _
  | item :: rest => by
      rw [itemsToData, itemsToValues, Data.convertItems]
      exact yields_bind (yields_to_value item) (yields_bind (items_yield rest) (yields_pure _))

/-- The keys are text and stay as they are, so that behind the members made so far the same entries
are inserted in the same order. -/
theorem entries_yield :
    ∀ (entries : List (String × Plain)) (before : Members Value),
      Yields (Data.convertEntries before (entriesToData entries))
        ((entriesToValues entries).foldl
          (fun members entry => members.insert entry.1 entry.2) before)
  | [], before => yields_pure before
  | (key, plain) :: rest, before => by
      rw [entriesToData, entriesToValues, Data.convertEntries, List.foldl_cons]
      have spelled : Yields (Data.text key).convert (.text key) := yields_pure _
      exact yields_bind spelled
        (yields_bind (yields_to_value plain) (entries_yield rest (before.insert key plain.toValue)))

end

/-- A conversion of plain data does not fail and comes to the value that is built directly: the
same form of number, text, list or map at every node, and the same members in every map. -/
theorem conversion_builds_the_same_value (plain : Plain) (registry : Registry) :
    (plain.toData.toValue? registry).1 = .ok plain.toValue ∧
      (plain.toData.toValue registry).1 = plain.toValue := by
  have converted : (plain.toData.toValue? registry).1 = .ok plain.toValue := by
    obtain ⟨after, runs⟩ := yields_to_value plain { registry with converting := true }
    rw [Data.toValue?, apart, runs]
  refine ⟨converted, ?_⟩
  simp only [Data.toValue, converted, lenient]

-- the later entry of a key counts, and what is absent is a member all the same
example :
    toValue (.map [("b", .list [.word (.uint8 1), .word (.int8 1)]), ("a", .char 'x'),
      ("b", .absent)]) = .map [("a", .text "x"), ("b", .none)] := by
  cbv

end Plain

end Mustache

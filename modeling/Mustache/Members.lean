/-!
Members of a map: pairs in ascending order of key, each key at most once. A later
entry of a key replaces the earlier one.
-/

namespace Mustache

abbrev Members (α : Type) := List (String × α)

namespace Members

variable {α : Type}

def insert (key : String) (value : α) : Members α → Members α
  | [] => [(key, value)]
  | (present, kept) :: rest =>
      if key = present then (key, value) :: rest
      else if key < present then (key, value) :: (present, kept) :: rest
      else (present, kept) :: insert key value rest

def ofList (entries : List (String × α)) : Members α :=
  entries.foldl (fun members entry => insert entry.1 entry.2 members) []

def get? (key : String) (members : Members α) : Option α := members.lookup key

theorem mem_of_get {key : String} {value : α} {members : Members α}
    (found : members.get? key = some value) : (key, value) ∈ members := by
  obtain ⟨before, after, rfl, _⟩ := List.lookup_eq_some_iff.1 found
  simp

theorem get_cons (present : String) (kept : α) (rest : Members α) (asked : String) :
    get? asked ((present, kept) :: rest) =
      if asked = present then some kept else get? asked rest := by
  by_cases same : asked = present
  · simp [get?, same]
  · simp [get?, same, List.lookup_cons, beq_false_of_ne same]

theorem get_insert (members : Members α) (key : String) (value : α) (asked : String) :
    (members.insert key value).get? asked =
      if asked = key then some value else members.get? asked := by
  induction members with
  | nil => exact get_cons key value [] asked
  | cons entry rest ih =>
      obtain ⟨present, kept⟩ := entry
      by_cases same : key = present
      · simp only [insert, same, if_true, get_cons]
        split <;> rfl
      · by_cases before : key < present
        · simp only [insert, same, before, if_true, if_false, get_cons]
        · simp only [insert, same, before, if_false, get_cons, ih]
          by_cases askedKey : asked = key
          · simp only [askedKey, same, if_true, if_false]
          · simp only [askedKey, if_false]

end Members

end Mustache

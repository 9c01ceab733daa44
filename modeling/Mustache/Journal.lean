import Mustache.Value.Basic

/-!
The journal of what objects were asked. An object may answer the same key differently
each time; the journal is what its answers can depend on.
-/

namespace Mustache

/-- For each object by its identity the keys it was asked for, the latest first. -/
abbrev Journal := List (Nat × List String)

namespace Journal

def history (journal : Journal) (id : Nat) : List String := (journal.lookup id).getD []

def note (journal : Journal) (id : Nat) (key : String) : Journal :=
  match journal with
  | [] => [(id, [key])]
  | (other, keys) :: rest =>
      if other = id then (other, key :: keys) :: rest else (other, keys) :: note rest id key

end Journal

/-- A list position: digits, with a plus sign before them or not, that fit 64 bits. -/
def index? (key : String) : Option Nat :=
  let digits :=
    match key.toList with
    | '+' :: digits => digits
    | digits => digits
  if digits.isEmpty || !digits.all Char.isDigit then none
  else
    let number := digits.foldl (fun number digit => 10 * number + (digit.toNat - 48)) 0
    if number < UInt64.size then some number else none

def Object.ask {α : Type} (object : Object α) (key : String) (journal : Journal) :
    Option α × Journal :=
  (object.answer (journal.history object.id) key, journal.note object.id key)

def Object.ofList (id : Nat) (items : List Value) : Object Value where
  id := id
  role := .listed
  answer := fun _ key => (index? key).bind fun index => items[index]?
  items := some items
  shown := none
  inspected := "SeqObject"

/-- Looks up a member: of a map by key, of a list by position, of an object by asking it. -/
def Value.member (value : Value) (key : String) (journal : Journal) : Option Value × Journal :=
  match value with
  | .map members => (Members.get? key members, journal)
  | .list items => ((index? key).bind fun index => items[index]?, journal)
  | .object entity => entity.ask key journal
  | _ => (Option.none, journal)

end Mustache

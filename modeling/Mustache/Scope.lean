import Mustache.Journal
import Mustache.Text.Search

/-!
Scopes: the views a name is looked up in. Each scope but the root has a parent made
before it, so the scopes form a tree; they are kept newest first, and the number of
a scope is how many were made before it. A scope remembers what each name was
answered with, misses among them, and answers the same from then on.
-/

namespace Mustache

def segments (name : String) : List String :=
  (Text.splitAt '.' name.toList).map String.ofList

/-- Follows the segments from value to member. A value that is absent leads nowhere, on the
way or at the end. -/
def Value.follow (value : Value) : List String → Journal → Option Value × Journal
  | [], journal => (if value.isAbsent then Option.none else some value, journal)
  | segment :: rest, journal =>
      if value.isAbsent then (Option.none, journal)
      else
        match value.member segment journal with
        | (Option.none, journal) => (Option.none, journal)
        | (some next, journal) => next.follow rest journal

structure Scope where
  view : Value
  parent : Option Nat
  memo : List (String × Value)

namespace Scope

/-- What the scope's own view answers: itself for a dot, else what the segments lead to. -/
def resolve (scope : Scope) (name : String) (journal : Journal) : Option Value × Journal :=
  if name = "." then (some scope.view, journal) else scope.view.follow (segments name) journal

def remember (name : String) (value : Value) (scope : Scope) : Scope :=
  { scope with memo := (name, value) :: scope.memo }

end Scope

abbrev Scopes := List Scope

namespace Scopes

def root (view : Value) : Scopes := [⟨view, none, []⟩]

/-- Opens a scope; its number is the number of scopes so far. -/
def push (parent : Nat) (view : Value) (scopes : Scopes) : Scopes :=
  ⟨view, some parent, []⟩ :: scopes

def get? (number : Nat) : Scopes → Option Scope
  | [] => none
  | scope :: older => if older.length = number then some scope else get? number older

def views : Scopes → Nat → List Value
  | [], _ => []
  | scope :: older, number =>
      if older.length = number then
        scope.view ::
          match scope.parent with
          | some parent => views older parent
          | none => []
      else views older number

/-- Looks a name up in a scope: what it remembers, else what its view answers, else what its
parent answers, else undefined. -/
def lookup (name : String) : Scopes → Nat → Journal → Value × Scopes × Journal
  | [], _, journal => (.undefined, [], journal)
  | scope :: older, number, journal =>
      if older.length = number then
        match scope.memo.lookup name with
        | some value => (value, scope :: older, journal)
        | none =>
            match scope.resolve name journal with
            | (some value, journal) => (value, scope.remember name value :: older, journal)
            | (none, journal) =>
                match scope.parent with
                | none => (.undefined, scope.remember name .undefined :: older, journal)
                | some parent =>
                    let (value, older, journal) := lookup name older parent journal
                    (value, scope.remember name value :: older, journal)
      else
        let (value, older, journal) := lookup name older number journal
        (value, scope :: older, journal)

end Scopes

end Mustache

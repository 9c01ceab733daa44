import Mustache.Members

/-!
Values: what templates are rendered against. Plain values hold their data; an object
answers for its members itself and is known by its identity.
-/

namespace Mustache

/-- How an object is treated: as text alone, as something with members, or as a list. -/
inductive Role
  | plain
  | keyed
  | listed
  deriving DecidableEq, Repr

/-- An object. What it answers may depend on the keys it was asked for before, the latest
first; its items are for those who ask for a list. Objects are well founded: none holds or
answers with itself, however deep, or with ever new objects without end. An object that does has
its like in one that is cut deeper than it is looked into, which no finite run tells from it. -/
structure Object (α : Type) where
  id : Nat
  role : Role
  answer : List String → String → Option α
  items : Option (List α)
  /-- The text put out for the object, where it has one of its own. -/
  shown : Option String
  inspected : String

inductive Value
  | undefined
  | none
  | bool (truth : Bool)
  | unsigned (number : UInt64)
  | signed (number : Int64)
  | float (number : Float)
  | text (content : String)
  | list (items : List Value)
  | map (members : List (String × Value))
  | object (entity : Object Value)
  deriving Inhabited

inductive ValueKind
  | undefined
  | none
  | bool
  | number
  | text
  | list
  | map
  | object
  deriving DecidableEq, Repr

def ValueKind.description : ValueKind → String
  | .undefined => "undefined"
  | .none => "none"
  | .bool => "bool"
  | .number => "number"
  | .text => "string"
  | .list => "sequence"
  | .map => "map"
  | .object => "object"

namespace Value

def kind : Value → ValueKind
  | .undefined => .undefined
  | .none => .none
  | .bool _ => .bool
  | .unsigned _ | .signed _ | .float _ => .number
  | .text _ => .text
  | .list _ => .list
  | .map _ => .map
  | .object _ => .object

def isUndefined : Value → Bool
  | .undefined => true
  | _ => false

def isNone : Value → Bool
  | .none => true
  | _ => false

/-- Undefined and none both count as missing. -/
def isAbsent : Value → Bool
  | .undefined | .none => true
  | _ => false

/-- Only what is missing, and false, is not true. -/
def isTrue : Value → Bool
  | .undefined | .none | .bool false => false
  | _ => true

def isObject : Value → Bool
  | .object _ => true
  | _ => false

def text? : Value → Option String
  | .text content => some content
  | _ => Option.none

/-- Whether sections go through the items of the value. -/
def isList : Value → Bool
  | .list _ => true
  | .object entity => entity.role = .listed
  | _ => false

/-- The items of a list, or of an object in the role of a list that names them. -/
def items? : Value → Option (List Value)
  | .list items => some items
  | .object entity => if entity.role = .listed then entity.items else Option.none
  | _ => Option.none

def isEmptyList : Value → Bool
  | .list items => items.isEmpty
  | .object entity =>
      if entity.role = .listed then
        match entity.items with
        | some items => items.isEmpty
        | Option.none => true
      else false
  | _ => false

def length? : Value → Option Nat
  | .text content => some content.length
  | .list items => some items.length
  | .map members => some members.length
  | .object entity =>
      if entity.role = .listed then entity.items.map List.length else Option.none
  | _ => Option.none

def integer? : Value → Option Int
  | .unsigned number => some number.toNat
  | .signed number => some number.toInt
  | _ => Option.none

def number? : Value → Option Float
  | .unsigned number => some number.toFloat
  | .signed number => some number.toFloat
  | .float number => some number
  | _ => Option.none

/-- Integers compare as integers; with a float in play both sides are floats. -/
def agreesAsNumber (left right : Value) : Bool :=
  match left.integer?, right.integer? with
  | some leftNumber, some rightNumber => leftNumber = rightNumber
  | _, _ =>
      match left.number?, right.number? with
      | some leftNumber, some rightNumber => leftNumber == rightNumber
      | _, _ => false

mutual

/-- Equality of values: by content, and of objects by identity. -/
def agrees : Value → Value → Bool
  | .undefined, .undefined => true
  | .none, .none => true
  | .bool left, .bool right => left = right
  | .text left, .text right => left = right
  | .list left, .list right => agreesItems left right
  | .map left, .map right => agreesMembers left right
  | .object left, .object right => left.id = right.id
  | left, right => agreesAsNumber left right

def agreesItems : List Value → List Value → Bool
  | [], [] => true
  | left :: leftRest, right :: rightRest => left.agrees right && agreesItems leftRest rightRest
  | _, _ => false

def agreesMembers : Members Value → Members Value → Bool
  | [], [] => true
  | (leftKey, left) :: leftRest, (rightKey, right) :: rightRest =>
      leftKey = rightKey && left.agrees right && agreesMembers leftRest rightRest
  | _, _ => false

end

end Value

end Mustache

import Mustache.Data.Basic

/-!
Plain data: scalars, options, lists and maps with text keys. Their values are built
directly, without a conversion that could fail.
-/

namespace Mustache

inductive Plain
  | unit
  | bool (truth : Bool)
  | word (number : Word)
  | float32 (number : Float32)
  | float64 (number : Float)
  | char (c : Char)
  | text (content : String)
  | absent
  | present (plain : Plain)
  | list (items : List Plain)
  | map (entries : List (String × Plain))
  | ready (value : Value)
  deriving Inhabited

/-- Carriers without a sign are unsigned, the others signed. -/
def Word.toValue : Word → Value
  | .uint8 number => .unsigned number.toUInt64
  | .uint16 number => .unsigned number.toUInt64
  | .uint32 number => .unsigned number.toUInt64
  | .uint64 number => .unsigned number
  | .int8 number => .signed number.toInt64
  | .int16 number => .signed number.toInt64
  | .int32 number => .signed number.toInt64
  | .int64 number => .signed number

namespace Plain

mutual

def toValue : Plain → Value
  | .unit | .absent => .none
  | .bool truth => .bool truth
  | .word number => number.toValue
  | .float32 number => .float number.toFloat
  | .float64 number => .float number
  | .char c => .text (String.singleton c)
  | .text content => .text content
  | .present plain => plain.toValue
  | .list items => .list (itemsToValues items)
  | .map entries => .map (Members.ofList (entriesToValues entries))
  | .ready value => value

def itemsToValues : List Plain → List Value
  | [] => []
  | item :: rest => item.toValue :: itemsToValues rest

def entriesToValues : List (String × Plain) → List (String × Value)
  | [] => []
  | (key, plain) :: rest => (key, plain.toValue) :: entriesToValues rest

end

end Plain

end Mustache

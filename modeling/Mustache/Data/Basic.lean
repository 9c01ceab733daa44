import Mustache.Value.Basic

/-!
Data: what can be converted to a value. Data has more shapes than values have, and
can contain values that are ready, which conversion leaves as they are.
-/

namespace Mustache

inductive Word
  | uint8 (number : UInt8)
  | uint16 (number : UInt16)
  | uint32 (number : UInt32)
  | uint64 (number : UInt64)
  | int8 (number : Int8)
  | int16 (number : Int16)
  | int32 (number : Int32)
  | int64 (number : Int64)

inductive Integer
  | word (number : Word)
  | uint128 (number : BitVec 128)
  | int128 (number : BitVec 128)

inductive Data
  | unit
  | bool (truth : Bool)
  | integer (number : Integer)
  | float32 (number : Float32)
  | float64 (number : Float)
  | char (c : Char)
  | text (content : String)
  | bytes (content : List UInt8)
  | absent
  | present (data : Data)
  | namedUnit
  | choice (name : String) (index : UInt32) (variant : String)
  | wrapped (data : Data)
  | choiceOf (variant : String) (data : Data)
  | sequence (items : List Data)
  | choiceOfItems (variant : String) (items : List Data)
  | map (entries : List (Data × Data))
  | record (fields : List (String × Data))
  | choiceOfFields (variant : String) (fields : List (String × Data))
  | ready (value : Value)
  | failing (message : String)
  /-- Data that tells whether a conversion to a value is under way. -/
  | mode
  /-- Data that is converted on its own while its surroundings are. -/
  | nested (data : Data)
  /-- A map that starts with a value for which no key was given. -/
  | keyless (data : Data)
  deriving Inhabited

namespace Word

def toInt : Word → Int
  | .uint8 number => number.toNat
  | .uint16 number => number.toNat
  | .uint32 number => number.toNat
  | .uint64 number => number.toNat
  | .int8 number => number.toInt
  | .int16 number => number.toInt
  | .int32 number => number.toInt
  | .int64 number => number.toInt

end Word

def Integer.toInt : Integer → Int
  | .word number => number.toInt
  | .uint128 number => number.toNat
  | .int128 number => number.toInt

end Mustache

import Mustache.Data.Basic
import Mustache.Decimal.Nearest
import Mustache.Error
import Mustache.Text.Utf8
import Mustache.Value.Text

/-!
Conversion of data to values. A ready value travels through a conversion as a
ticket: it is parked under a fresh number, and the unit variant that bears the
reserved mark and that number redeems it. A ticket is good for one redemption, so
that a unit variant made by hand with the reserved mark redeems nothing.
-/

namespace Mustache

/-- The values parked at the moment, the number given out last, and whether a conversion is
under way. -/
structure Registry where
  mark : String
  converting : Bool
  last : UInt32
  parked : List (UInt32 × Value)

namespace Registry

def start (mark : String) : Registry := ⟨mark, false, 0, []⟩

/-- Parks a value under the number after the last; numbers wrap around. -/
def park (value : Value) (registry : Registry) : UInt32 × Registry :=
  let ticket := registry.last + 1
  (ticket,
    { registry with
      last := ticket
      parked := (ticket, value) :: registry.parked.filter fun entry => entry.1 != ticket })

def redeem (ticket : UInt32) (registry : Registry) : Option Value × Registry :=
  (registry.parked.lookup ticket,
    { registry with parked := registry.parked.filter fun entry => entry.1 != ticket })

end Registry

abbrev Conversion := EStateM Error Registry

namespace Conversion

def unknownTicket : Error := Error.ofDetail .badSerialization "value handle not in registry"

def missingKey : Error := Error.ofDetail .badSerialization "map value without key"

/-- A unit variant is its own name, unless it is a ticket. -/
def variant (name : String) (index : UInt32) (chosen : String) : Conversion Value :=
  fun registry =>
    if name = registry.mark ∧ chosen = registry.mark then
      match registry.redeem index with
      | (some value, registry) => .ok value registry
      | (none, registry) => .error unknownTicket registry
    else .ok (.text chosen) registry

/-- A ready value goes in and comes out under one ticket. -/
def ready (value : Value) : Conversion Value :=
  fun registry =>
    let (ticket, registry) := registry.park value
    variant registry.mark ticket registry.mark registry

/-- A conversion of its own. It tells that one is under way; behind it only the outermost tells
that none is any more. -/
def apart (conversion : Conversion Value) (registry : Registry) :
    Except Error Value × Registry :=
  let release (behind : Registry) : Registry :=
    if registry.converting then behind else { behind with converting := false }
  match conversion { registry with converting := true } with
  | .ok value behind => (.ok value, release behind)
  | .error error behind => (.error error, release behind)

theorem apart_pure (value : Value) (registry : Registry) :
    apart (pure value) registry = (.ok value, registry) := by
  obtain ⟨_, converting, _, _⟩ := registry
  cases converting <;> rfl

def lenient (result : Except Error Value) : Value :=
  match result with
  | .ok value => value
  | .error _ => .undefined

end Conversion

/-- Text is a key as it is, any other value by the text put out for it. -/
def Value.asKey : Value → String
  | .text content => content
  | value => value.display

/-- Each carrier of at most 64 bits fits one of the two integer forms; of the wider ones, what
does not fit the form of their sign becomes the nearest float. -/
def Integer.convert : Integer → Value
  | .word (.uint8 number) => .unsigned number.toUInt64
  | .word (.uint16 number) => .unsigned number.toUInt64
  | .word (.uint32 number) => .unsigned number.toUInt64
  | .word (.uint64 number) => .unsigned number
  | .word (.int8 number) => .signed number.toInt64
  | .word (.int16 number) => .signed number.toInt64
  | .word (.int32 number) => .signed number.toInt64
  | .word (.int64 number) => .signed number
  | .uint128 number =>
      if number.toNat < UInt64.size then .unsigned (UInt64.ofNat number.toNat)
      else .float (Decimal.nearestOfInt number.toNat)
  | .int128 number =>
      if Int64.minValue.toInt ≤ number.toInt ∧ number.toInt ≤ Int64.maxValue.toInt then
        .signed (Int64.ofInt number.toInt)
      else .float (Decimal.nearestOfInt number.toInt)

namespace Data

mutual

def convert : Data → Conversion Value
  | .unit | .absent | .namedUnit => pure .none
  | .bool truth => pure (.bool truth)
  | .integer number => pure number.convert
  | .float32 number => pure (.float number.toFloat)
  | .float64 number => pure (.float number)
  | .char c => pure (.text (String.singleton c))
  | .text content => pure (.text content)
  | .bytes content => pure (.text (Text.decodeLossy content))
  | .present data => data.convert
  | .choice name index variant => Conversion.variant name index variant
  | .wrapped data => data.convert
  | .choiceOf variant data => do
      let value ← data.convert
      return .map [(variant, value)]
  | .sequence items => do
      let values ← convertItems items
      return .list values
  | .choiceOfItems variant items => do
      let values ← convertItems items
      return .map [(variant, .list values)]
  | .map entries => do
      let members ← convertEntries [] entries
      return .map members
  | .record fields => do
      let members ← convertFields [] fields
      return .map members
  | .choiceOfFields variant fields => do
      let members ← convertFields [] fields
      return .map [(variant, .map members)]
  | .ready value => Conversion.ready value
  | .failing message => throw (Error.custom message)
  | .mode => fun registry =>
      .ok (.text (if registry.converting then "internal" else "external")) registry
  | .nested data => fun registry =>
      let (result, registry) := Conversion.apart data.convert registry
      Conversion.ready (Conversion.lenient result) registry
  | .keyless _ => throw Conversion.missingKey

def convertItems : List Data → Conversion (List Value)
  | [] => pure []
  | item :: rest => do
      let value ← item.convert
      let values ← convertItems rest
      return value :: values

/-- Of entries with one key the last stays. -/
def convertEntries (members : Members Value) : List (Data × Data) → Conversion (Members Value)
  | [] => pure members
  | (key, data) :: rest => do
      let key ← key.convert
      let value ← data.convert
      convertEntries (members.insert key.asKey value) rest

def convertFields (members : Members Value) : List (String × Data) → Conversion (Members Value)
  | [] => pure members
  | (name, data) :: rest => do
      let value ← data.convert
      convertFields (members.insert name value) rest

end

def toValue? (data : Data) (registry : Registry) : Except Error Value × Registry :=
  Conversion.apart data.convert registry

/-- The value of the data, undefined if there is none. -/
def toValue (data : Data) (registry : Registry) : Value × Registry :=
  let (result, registry) := data.toValue? registry
  (Conversion.lenient result, registry)

end Data

end Mustache

/-!
Reading bytes as text. Where bytes are not UTF-8, each longest piece that could
have begun a character is replaced by one U+FFFD, and reading goes on behind it.
-/

namespace Mustache.Text

/-- A character begun: the bits so far, the bytes owed, and what the next byte may be. -/
structure Pending where
  value : Nat
  owed : Nat
  low : Nat
  high : Nat
  deriving DecidableEq, Repr

def replacement : Char := Char.ofNat 0xFFFD

/-- What a byte says where a character may begin. -/
def leadByte (byte : Nat) : List Char × Option Pending :=
  if byte ≤ 0x7F then ([Char.ofNat byte], none)
  else if 0xC2 ≤ byte ∧ byte ≤ 0xDF then ([], some ⟨byte - 0xC0, 1, 0x80, 0xBF⟩)
  else if byte = 0xE0 then ([], some ⟨0, 2, 0xA0, 0xBF⟩)
  else if byte = 0xED then ([], some ⟨0xD, 2, 0x80, 0x9F⟩)
  else if 0xE1 ≤ byte ∧ byte ≤ 0xEF then ([], some ⟨byte - 0xE0, 2, 0x80, 0xBF⟩)
  else if byte = 0xF0 then ([], some ⟨0, 3, 0x90, 0xBF⟩)
  else if byte = 0xF4 then ([], some ⟨4, 3, 0x80, 0x8F⟩)
  else if 0xF1 ≤ byte ∧ byte ≤ 0xF3 then ([], some ⟨byte - 0xF0, 3, 0x80, 0xBF⟩)
  else ([replacement], none)

/-- What a byte says inside a character; one that does not belong there begins anew. -/
def tailByte (pending : Pending) (byte : Nat) : List Char × Option Pending :=
  if pending.low ≤ byte ∧ byte ≤ pending.high then
    let value := pending.value * 64 + (byte - 0x80)
    if pending.owed ≤ 1 then ([Char.ofNat value], none)
    else ([], some ⟨value, pending.owed - 1, 0x80, 0xBF⟩)
  else
    let (chars, next) := leadByte byte
    (replacement :: chars, next)

def decodeFrom : Option Pending → List UInt8 → List Char
  | none, [] => []
  | some _, [] => [replacement]
  | none, byte :: rest =>
      let (chars, next) := leadByte byte.toNat
      chars ++ decodeFrom next rest
  | some pending, byte :: rest =>
      let (chars, next) := tailByte pending byte.toNat
      chars ++ decodeFrom next rest

/-- The text of the bytes, every byte accounted for. -/
def decodeLossy (bytes : List UInt8) : String := String.ofList (decodeFrom none bytes)

def decode? (bytes : List UInt8) : Option String := String.fromUTF8? (ByteArray.mk bytes.toArray)

end Mustache.Text

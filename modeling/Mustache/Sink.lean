/-!
Sinks: where output goes. A text takes all; a bounded sink takes as many bytes as it
has room for, and refuses a write that is longer after taking what fits.
-/

namespace Mustache

inductive Sink
  | text (written : String)
  | bounded (room : Nat) (written : Array UInt8)
  deriving DecidableEq, Repr

namespace Sink

def unbounded : Sink := .text ""

def ofRoom (room : Nat) : Sink := .bounded room #[]

def utf8 (piece : String) : Array UInt8 := piece.toUTF8.data

/-- The sink after a write, and whether it took all of it. -/
def write (piece : String) : Sink → Sink × Bool
  | .text written => (.text (written ++ piece), true)
  | .bounded room written =>
      let bytes := utf8 piece
      (.bounded (room - bytes.size) (written ++ bytes.take room), bytes.size ≤ room)

def bytes : Sink → Array UInt8
  | .text written => utf8 written
  | .bounded _ written => written

def string : Sink → String
  | .text written => written
  | .bounded _ _ => ""

theorem utf8_append (first second : String) :
    utf8 (first ++ second) = utf8 first ++ utf8 second := by
  simp [utf8, String.toByteArray_append]

theorem write_empty (sink : Sink) : sink.write "" = (sink, true) := by
  cases sink with
  | text written => simp [write]
  | bounded room written => simp [write, utf8]

/-- Two writes are one write of both pieces, unless the first is refused. -/
theorem write_append (first second : String) (sink : Sink) :
    sink.write (first ++ second) =
      match sink.write first with
      | (left, true) => left.write second
      | (left, false) => (left, false) := by
  cases sink with
  | text written => simp [write, String.append_assoc]
  | bounded room written =>
      simp only [write, utf8_append, Array.size_append]
      by_cases fits : (utf8 first).size ≤ room
      · have secondFits : (utf8 first).size + (utf8 second).size ≤ room ↔
            (utf8 second).size ≤ room - (utf8 first).size := by omega
        simp [fits, secondFits, Nat.sub_sub]
      · have full : room - (utf8 first).size = 0 := by omega
        have bothFull : room - ((utf8 first).size + (utf8 second).size) = 0 := by omega
        have refused : ¬ (utf8 first).size + (utf8 second).size ≤ room := by omega
        simp [fits, full, bothFull, refused]

end Sink

end Mustache

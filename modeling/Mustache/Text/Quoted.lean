import Mustache.Text.Hidden

/-!
Quoted text, as values and tokens are shown for inspection. Every character that
could be misread stands as an escape, so the quoted form fits on one line.
-/

namespace Mustache.Text

def hexDigits (number : Nat) : String := String.ofList (Nat.toDigits 16 number)

def quotedChar (c : Char) : String :=
  if c = '\x22' then "\\\""
  else if c = '\\' then "\\\\"
  else if c = '\n' then "\\n"
  else if c = '\r' then "\\r"
  else if c = '\t' then "\\t"
  else if c = '\x00' then "\\0"
  else if isHidden c then "\\u\x7b" ++ hexDigits c.toNat ++ "\x7d"
  else String.singleton c

def quoted (text : String) : String :=
  "\"" ++ String.join (text.toList.map quotedChar) ++ "\""

end Mustache.Text

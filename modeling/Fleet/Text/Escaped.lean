/-
  Fleet.Text.Escaped — a text shown for reading: between double quotes, with an escape for
  every character that would end it or would not show as itself.
-/

import Fleet.Text.Hidden

namespace Fleet.Text

def hexText (n : Nat) : String := String.ofList (Nat.toDigits 16 n)

def escapeChar (c : Char) : String :=
  if c = '"' then "\\\""
  else if c = '\\' then "\\\\"
  else if c = '\n' then "\\n"
  else if c = '\r' then "\\r"
  else if c = '\t' then "\\t"
  else if c.toNat = 0 then "\\0"
  else if isHidden c then "\\u\x7b" ++ hexText c.toNat ++ "\x7d"
  else c.toString

def escaped (text : String) : String := "\"" ++ String.join (text.toList.map escapeChar) ++ "\""

end Fleet.Text

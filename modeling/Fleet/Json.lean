/-
  Fleet.Json — structured text for other programs: values with their fields in order
  (`Json`), written over several lines with two blanks for each level (`Json.pretty`).
-/

namespace Fleet

inductive Json where
  | number (value : Int)
  | text (value : String)
  | list (items : List Json)
  | record (fields : List (String × Json))
  | null
  deriving Repr

namespace Json

/-! ## Texts -/

def hexDigit (n : Nat) : Char := if n < 10 then Char.ofNat ('0'.toNat + n) else Char.ofNat ('a'.toNat + (n - 10))

/-- Quotes, backslashes and control characters are escaped; all else stands for itself. -/
def escapeChar (c : Char) : List Char :=
  if c = '"' then ['\\', '"']
  else if c = '\\' then ['\\', '\\']
  else if c = '\x08' then ['\\', 'b']
  else if c = '\x0c' then ['\\', 'f']
  else if c = '\n' then ['\\', 'n']
  else if c = '\r' then ['\\', 'r']
  else if c = '\t' then ['\\', 't']
  else if c.toNat < 32 then ['\\', 'u', '0', '0', hexDigit (c.toNat / 16), hexDigit (c.toNat % 16)]
  else [c]

def quoted (text : String) : String := String.ofList ('"' :: (text.toList.flatMap escapeChar ++ ['"']))

/-! ## Values -/

def newline (level : Nat) : String := "\n" ++ String.ofList (List.replicate (2 * level) ' ')

mutual

/-- A value whose first line starts `level` levels in. -/
def write (level : Nat) : Json → String
  | .number value => toString value
  | .text value => quoted value
  | .null => "null"
  | .list [] => "[]"
  | .list (item :: items) =>
    "[" ++ newline (level + 1) ++ write (level + 1) item ++ writeItems (level + 1) items ++ newline level ++ "]"
  | .record [] => "\x7b\x7d"
  | .record ((name, value) :: fields) =>
    "\x7b" ++ newline (level + 1) ++ quoted name ++ ": " ++ write (level + 1) value ++
      writeFields (level + 1) fields ++ newline level ++ "\x7d"

def writeItems (level : Nat) : List Json → String
  | [] => ""
  | item :: items => "," ++ newline level ++ write level item ++ writeItems level items

def writeFields (level : Nat) : List (String × Json) → String
  | [] => ""
  | (name, value) :: fields =>
    "," ++ newline level ++ quoted name ++ ": " ++ write level value ++ writeFields level fields

end

def pretty (j : Json) : String := write 0 j

end Json

end Fleet

/-
  Fleet.Shell.Quote — writing a text as one word of a shell command line.

  A word of harmless characters stands as it is. Any other stands between single quotes,
  where a shell takes every character for itself; a single quote inside closes them, is
  written behind a backslash, and opens them again.
-/

namespace Fleet.Shell

/-- A character that a shell gives no meaning of its own. -/
def isHarmless (c : Char) : Bool := c.isAlphanum || "-_./:=,+@%".toList.contains c

/-- What stands between the quotes for a text: all as it is but the quote. -/
def quotedBody : List Char → List Char
  | [] => []
  | c :: rest => if c = '\'' then ['\'', '\\', '\'', '\''] ++ quotedBody rest else c :: quotedBody rest

def quoteChars (text : List Char) : List Char :=
  if text ≠ [] ∧ text.all isHarmless then text else '\'' :: (quotedBody text ++ ['\''])

def quote (text : String) : String := String.ofList (quoteChars text.toList)

end Fleet.Shell

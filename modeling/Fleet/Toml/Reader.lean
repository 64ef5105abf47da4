/-
  Fleet.Toml.Reader — reading a document: from its characters to the tree of
  `Fleet.Toml.Node`, or nothing if it is not well formed (`read?`).

  The reader goes through the text once. What is left of it and how many bytes came before
  are the state (`Cursor`); values nest less than 80 deep, which bounds the recursion.
-/

import Fleet.Toml.Literal

namespace Fleet.Toml

/-! ## The cursor -/

structure Cursor where
  rest : List Char
  pos : Nat

/-- A reader of one piece of the text; `none` if the text does not go on that way. -/
abbrev Scan := StateT Cursor Option

namespace Scan

def peek : Scan (Option Char) := do return (← get).rest.head?

def position : Scan Nat := do return (← get).pos

def sees (cs : String) : Scan Bool := do return cs.toList.isPrefixOf (← get).rest

def take (n : Nat) : Scan (List Char) := do
  let c ← get
  let taken := c.rest.take n
  set { c with rest := c.rest.drop n, pos := c.pos + (String.ofList taken).utf8ByteSize }
  return taken

def takeWhile (p : Char → Bool) : Scan (List Char) := do
  take ((← get).rest.takeWhile p).length

def expect (cs : String) : Scan Unit := do
  if ← sees cs then discard (take cs.length) else failure

def spanned {α : Type} (p : Scan α) : Scan (α × Span) := do
  let first ← position
  let a ← p
  return (a, ⟨first, ← position⟩)

/-- Repeat a reader that takes at least one character until it has nothing more. -/
def collect {α : Type} (p : Scan (Option α)) : Nat → Scan (List α)
  | 0 => failure
  | fuel + 1 => do
    match ← p with
    | none => return []
    | some a => return a :: (← collect p fuel)

def many {α : Type} (p : Scan (Option α)) : Scan (List α) := do collect p ((← get).rest.length + 1)

end Scan

open Scan

/-! ## Blanks, comments and line ends -/

def isBlank (c : Char) : Bool := c == ' ' || c == '\t'

/-- A character that may stand in a comment or, quotes and backslashes apart, in a text. -/
def isPlain (c : Char) : Bool := c == '\t' || (' ' ≤ c && c != '\x7f')

def blanks : Scan Unit := discard (takeWhile isBlank)

def comment : Scan Unit := do if ← sees "#" then discard (takeWhile isPlain)

def lineEnd : Scan Bool := do
  if ← sees "\n" then discard (take 1); return true
  else if ← sees "\r\n" then discard (take 2); return true
  else return false

/-- What may follow a statement on its line. -/
def restOfLine : Scan Unit := do
  blanks
  comment
  if (← lineEnd) || (← peek).isNone then return else failure

def gap : Scan Unit := do
  let step : Scan (Option Unit) := do
    let before ← position
    blanks
    comment
    discard lineEnd
    if (← position) = before then return none else return some ()
  discard (many step)

/-! ## Texts -/

def isScalarValue (n : Nat) : Bool := n < 0xD800 || (0xDFFF < n && n ≤ 0x10FFFF)

def hexChar (n : Nat) : Scan Char := do
  let ds ← take n
  if ds.length = n ∧ ds.all (isDigitOf 16) ∧ isScalarValue (valueOf 16 ds) then return Char.ofNat (valueOf 16 ds)
  else failure

def escaped : Scan Char := do
  match ← take 1 with
  | ['b'] => return '\x08'
  | ['t'] => return '\t'
  | ['n'] => return '\n'
  | ['f'] => return '\x0c'
  | ['r'] => return '\r'
  | ['"'] => return '"'
  | ['\\'] => return '\\'
  | ['u'] => hexChar 4
  | ['U'] => hexChar 8
  | _ => failure

def basicChar : Scan (Option (List Char)) := do
  match ← peek with
  | some '"' => return none
  | some '\\' => discard (take 1); return some [← escaped]
  | some c => if isPlain c then return some (← take 1) else failure
  | none => failure

def literalChar : Scan (Option (List Char)) := do
  match ← peek with
  | some '\'' => return none
  | some c => if isPlain c then return some (← take 1) else failure
  | none => failure

/-- Skip the line end behind a backslash and all blanks and line ends after it. -/
def joinedLines : Scan Unit := do
  blanks
  if !(← lineEnd) then failure
  let step : Scan (Option Unit) := do
    let before ← position
    blanks
    discard lineEnd
    if (← position) = before then return none else return some ()
  discard (many step)

/-- Up to two quotes inside a long text, or nothing before the three that end it. -/
def innerQuotes (quote : Char) : Scan (Option (List Char)) := do
  let run := ((← get).rest.takeWhile (· == quote)).length
  if run < 3 then return some (← take run)
  else if run = 3 then return none
  else if run ≤ 5 then return some (← take (run - 3))
  else failure

def longBasicPiece : Scan (Option (List Char)) := do
  if ← lineEnd then return some ['\n']
  match ← peek with
  | some '"' => innerQuotes '"'
  | some '\\' =>
    discard (take 1)
    match ← peek with
    | some c => if isBlank c || c == '\n' || c == '\r' then joinedLines; return some [] else return some [← escaped]
    | none => failure
  | some c => if isPlain c then return some (← take 1) else failure
  | none => failure

def longLiteralPiece : Scan (Option (List Char)) := do
  if ← lineEnd then return some ['\n']
  match ← peek with
  | some '\'' => innerQuotes '\''
  | some c => if isPlain c then return some (← take 1) else failure
  | none => failure

def quoted (long : Bool) : Scan String := do
  if long && (← sees "\"\"\"") then
    expect "\"\"\""
    discard lineEnd
    let pieces ← many longBasicPiece
    expect "\"\"\""
    return String.ofList pieces.flatten
  else if long && (← sees "'''") then
    expect "'''"
    discard lineEnd
    let pieces ← many longLiteralPiece
    expect "'''"
    return String.ofList pieces.flatten
  else if ← sees "\"" then
    expect "\""
    let pieces ← many basicChar
    expect "\""
    return String.ofList pieces.flatten
  else
    expect "'"
    let pieces ← many literalChar
    expect "'"
    return String.ofList pieces.flatten

/-! ## Keys -/

def isBareKeyChar (c : Char) : Bool := c.isAlphanum || c == '_' || c == '-'

def simpleKey : Scan Key := do
  blanks
  let (text, span) ← spanned do
    match ← peek with
    | some c =>
      if c == '"' || c == '\'' then quoted false
      else
        let name ← takeWhile isBareKeyChar
        if name.isEmpty then failure else return String.ofList name
    | none => failure
  blanks
  return ⟨text, span⟩

def maxDepth : Nat := 80

def dottedKey : Scan (List Key) := do
  let first ← simpleKey
  let rest ← many do
    if ← sees "." then discard (take 1); return some (← simpleKey) else return none
  if (first :: rest).length < maxDepth then return first :: rest else failure

/-! ## Values -/

def timeFollows (date rest : List Char) : Bool :=
  date? date == some [] && rest.head? == some ' ' &&
    ((rest.drop 1).take 2).all Char.isDigit && (rest.drop 3).head? == some ':'

/-- A number, a date or a word. A date and a time may have a blank between them. -/
def bareValue : Scan Scalar := do
  let word ← takeWhile isLiteralChar
  let blank ← if timeFollows word (← get).rest then take 1 else pure []
  let time ← if blank = [] then pure [] else takeWhile isLiteralChar
  match Scalar.ofLiteral? (word ++ blank ++ time) with
  | some v => return v
  | none => failure

def arrayItems (item : Scan Node) : Scan (List Node) := do
  let step : Scan (Option Node) := do
    gap
    if ← sees "]" then return none
    let node ← item
    gap
    if ← sees "," then discard (take 1); return some node
    else if ← sees "]" then return some node
    else failure
  let items ← many step
  expect "]"
  return items

def assignment (value : Scan Node) : Scan (List Key × Node) := do
  let keys ← dottedKey
  expect "="
  blanks
  return (keys, ← value)

/-- The entries of an inline table, behind its opening brace. A comma separates two
    entries and does not end the last. -/
def inlineEntries (value : Scan Node) : Scan Entries := do
  blanks
  if ← sees "\x7d" then
    expect "\x7d"
    return []
  let first ← assignment value
  let step : Scan (Option (List Key × Node)) := do
    blanks
    if ← sees "," then discard (take 1); return some (← assignment value) else return none
  let rest ← many step
  expect "\x7d"
  match (first :: rest).foldlM (fun es (keys, node) => putDotted keys node es) [] with
  | some es => return es
  | none => failure

def value : Nat → Scan Node
  | 0 => failure
  | depth + 1 => do
    match ← peek with
    | some c =>
      if c == '"' || c == '\'' then
        let (text, span) ← spanned (quoted true)
        return .scalar (.text text) span
      else if c == '[' then
        if depth = 0 then failure
        let (items, span) ← spanned do
          expect "["
          arrayItems (value depth)
        return .array items span
      else if c == '\x7b' then
        if depth = 0 then failure
        let (entries, span) ← spanned do
          expect "\x7b"
          inlineEntries (value depth)
        return .table .inline (some span) entries
      else
        let (v, span) ← spanned bareValue
        return .scalar v span
    | none => failure

/-! ## Documents -/

/-- The tree so far and the table that the next key goes to. -/
structure Draft where
  root : Entries := []
  here : List Key := []

def Draft.put (d : Draft) (keys : List Key) (node : Node) : Option Draft := do
  let root ← changeAt (putDotted keys node) d.here d.root
  match d.here.getLast?, node.span? with
  | some last, some span => return { d with root := ← changeAt (stretch last span.stop) d.here.dropLast root }
  | _, _ => return { d with root }

/-- Open the table that a header names. -/
def Draft.open (d : Draft) (many : Bool) (keys : List Key) (span : Span) : Option Draft := do
  let last ← keys.getLast?
  let change := if many then openTables last span else openTable last span
  return { root := ← changeAt change keys.dropLast d.root, here := keys }

/-- A header: a dotted key in brackets, double ones for one more table of that name. -/
def header : Scan (Bool × List Key × Span) := do
  let many ← sees "[["
  let (keys, span) ← spanned do
    if many then expect "[[" else expect "["
    let keys ← dottedKey
    if many then expect "]]" else expect "]"
    return keys
  return (many, keys, span)

def statement (d : Draft) : Scan Draft := do
  match ← peek with
  | some '[' =>
    let (many, keys, span) ← header
    restOfLine
    match d.open many keys span with
    | some d' => return d'
    | none => failure
  | some '#' | some '\n' | some '\r' => restOfLine; return d
  | _ =>
    let (keys, node) ← assignment (value maxDepth)
    restOfLine
    match d.put keys node with
    | some d' => return d'
    | none => failure

def document : Nat → Draft → Scan Entries
  | 0, _ => failure
  | fuel + 1, d => do
    blanks
    if (← peek).isNone then return d.root
    document fuel (← statement d)

/-- The tree of a document, if it is well formed. A byte order mark in front is skipped. -/
def read? (text : String) : Option Entries :=
  let start : Cursor := match text.toList with
    | '\ufeff' :: rest => ⟨rest, 3⟩
    | rest => ⟨rest, 0⟩
  ((document (start.rest.length + 1) {}).run start).map (·.1)

end Fleet.Toml

/-
  Fleet.Toml.Fault — what is wrong with a document that is well formed but does not fit
  the settings: the reason, the place, and the report that shows both (`Report.message`).

  A reason is found where a value is looked at; a place is added by the innermost enclosing
  value that has one (`Fault.at`).
-/

import Fleet.Scheme
import Fleet.Toml.Node
import Fleet.Text.Escaped

namespace Fleet.Toml

/-! ## Reasons -/

inductive Reason where
  | unknownField (name : String) (known : List String)
  | unknownVariant (word : String) (known : List String)
  | invalidInteger (value : Int) (expected : String)
  | invalidKind (found : String) (expected : String)
  /-- A section written as a list with too few items. -/
  | tooShort (length : Nat) (name : String) (fields : Nat)
  | notWord
  | notOneEntry (none : Bool)
  | notTable (kind : String)
  | notEmptyTable
  | notEmptyArray
  deriving DecidableEq, Repr

def Reason.message : Reason → String
  | .unknownField name known => s!"unknown field `{name}`, expected {expectedWords known}"
  | .unknownVariant word known => unknownWord word known
  | .invalidInteger value expected => s!"invalid value: integer `{value}`, expected {expected}"
  | .invalidKind found expected => s!"invalid type: {found}, expected {expected}"
  | .tooShort length name fields =>
    s!"invalid length {length}, expected struct {name} with {fields} element" ++ if fields = 1 then "" else "s"
  | .notWord => "wanted string or table"
  | .notOneEntry true => "wanted exactly 1 element, found 0 elements"
  | .notOneEntry false => "wanted exactly 1 element, more than 1 element"
  | .notTable kind => s!"expected table, found {kind}"
  | .notEmptyTable => "expected empty table"
  | .notEmptyArray => "expected empty array"

/-! ## What was found instead -/

/-- A real number as messages write it: positional, and with a point. -/
def Real.text : Real → String
  | .finite negative magnitude =>
    let digits := magnitude.positional
    (if negative then "-" else "") ++ digits ++ (if digits.toList.contains '.' then "" else ".0")
  | .infinite negative => if negative then "-inf" else "inf"
  | .notANumber => "NaN"

def Node.described : Node → String
  | .scalar (.text value) _ => "string " ++ Text.escaped value
  | .scalar (.integer value) _ => s!"integer `{value}`"
  | .scalar (.real value) _ => "floating point `" ++ value.text ++ "`"
  | .scalar (.boolean value) _ => s!"boolean `{value}`"
  | .scalar .moment _ => "map"
  | .array .. => "sequence"
  | .table .. => "map"
  | .tables _ => "sequence"

/-! ## Faults and reports -/

structure Fault where
  reason : Reason
  span : Option Span := none
  deriving DecidableEq, Repr

/-- Place a fault that has no place yet. -/
def Fault.at (span : Option Span) (f : Fault) : Fault := { f with span := f.span <|> span }

structure Report where
  document : String
  fault : Fault
  deriving DecidableEq, Repr

namespace Report

/-- The characters of the text before its byte `pos`, and the rest. -/
def splitAtByte : Nat → List Char → List Char × List Char
  | _, [] => ([], [])
  | pos, c :: rest =>
    if pos = 0 then ([], c :: rest)
    else let (before, after) := splitAtByte (pos - c.utf8Size) rest
         (c :: before, after)

/-- The number of the line (from 0) that a byte stands in, and the characters before it on
    that line. -/
def position (text : String) (pos : Nat) : Nat × List Char :=
  let before := (splitAtByte pos text.toList).1
  (before.count '\n', (before.reverse.takeWhile (· != '\n')).reverse)

def lines (text : String) : List String := text.splitOn "\n"

def blanks (n : Nat) : String := String.ofList (List.replicate n ' ')

def message (r : Report) : String :=
  match r.fault.span with
  | none => r.fault.reason.message ++ "\n"
  | some span =>
    let (line, before) := position r.document span.first
    let column := before.length
    let content := (lines r.document).getD line ""
    let marks := min (span.stop - span.first) (content.utf8ByteSize - column)
    let number := toString (line + 1)
    let gutter := blanks (number.length + 1)
    s!"TOML parse error at line {line + 1}, column {column + 1}\n" ++
      gutter ++ "|\n" ++
      number ++ " | " ++ content ++ "\n" ++
      gutter ++ "|" ++ blanks (column + 1) ++ String.ofList (List.replicate (max 1 marks) '^') ++ "\n" ++
      r.fault.reason.message ++ "\n"

end Report

end Fleet.Toml

/-
  Fleet.Toml.Node — a settings document as a tree: values with the place they stand at
  (`Span`, in bytes), tables with their keys in order, and the rules by which headers and
  dotted keys grow the tree (`putDotted`, `openTable`, `openTables`).

  A table remembers how it came to be (`Origin`), because that decides who may still add
  to it: a header may open a table that was only implied by another header, a dotted key
  may extend a table that dotted keys made, an inline table is closed.
-/

import Fleet.Decimal.Double

namespace Fleet.Toml

/-- A range of bytes of the document, first included and stop excluded. -/
structure Span where
  first : Nat
  stop : Nat
  deriving DecidableEq, Repr

structure Key where
  text : String
  span : Span
  deriving DecidableEq, Repr

inductive Real where
  | finite (negative : Bool) (magnitude : Decimal)
  | infinite (negative : Bool)
  | notANumber
  deriving DecidableEq, Repr

inductive Scalar where
  | text (value : String)
  | integer (value : Int)
  | real (value : Real)
  | boolean (value : Bool)
  /-- A date, a time or both; settings hold none, so its value is not kept. -/
  | moment
  deriving DecidableEq, Repr

/-- How a table came to be. -/
inductive Origin where
  | inline
  | header
  /-- Passed through by the header of a table below it. -/
  | implied
  | dotted
  deriving DecidableEq, Repr

inductive Node where
  | scalar (value : Scalar) (span : Span)
  | array (items : List Node) (span : Span)
  /-- A table; one that was never written itself has no span. -/
  | table (origin : Origin) (span : Option Span) (entries : List (Key × Node))
  /-- The tables that headers in double brackets opened under one name. -/
  | tables (items : List Node)
  deriving Repr

instance : Inhabited Node := ⟨.tables []⟩

abbrev Entries := List (Key × Node)

namespace Node

def span? : Node → Option Span
  | .scalar _ span => some span
  | .array _ span => some span
  | .table _ span _ => span
  | .tables items =>
    match items.head?, items.getLast? with
    | some (.table _ (some a) _), some (.table _ (some b) _) => some ⟨a.first, b.stop⟩
    | _, _ => none

def kindName : Node → String
  | .scalar (.text _) _ => "string"
  | .scalar (.integer _) _ => "integer"
  | .scalar (.real _) _ => "float"
  | .scalar (.boolean _) _ => "boolean"
  | .scalar .moment _ => "datetime"
  | .array .. => "array"
  | .table .inline .. => "inline table"
  | .table .. => "table"
  | .tables _ => "array of tables"

end Node

/-! ## Entries -/

namespace Entries

def get? (name : String) (es : Entries) : Option Node :=
  (List.find? (fun e => e.1.text == name) es).map (·.2)

def replace (name : String) (node : Node) (es : Entries) : Entries :=
  List.map (fun e => if e.1.text == name then (e.1, node) else e) es

def remove (name : String) (es : Entries) : Entries := List.filter (fun e => e.1.text != name) es

end Entries

/-! ## Dotted keys -/

/-- Enter a value under a dotted key. The tables on the way may be new, made by dotted keys
    or implied by headers, but the value itself goes into one that dotted keys made (or,
    for a plain key, into `es`); a name is taken only once. -/
def putDotted : List Key → Node → Entries → Option Entries
  | [], _, _ => none
  | [key], value, es =>
    match es.get? key.text with
    | some _ => none
    | none => some (es ++ [(key, value)])
  | key :: rest, value, es =>
    match es.get? key.text with
    | none => (putDotted rest value []).map fun sub => es ++ [(key, .table .dotted none sub)]
    | some (.table .dotted span sub) =>
      (putDotted rest value sub).map fun sub' => es.replace key.text (.table .dotted span sub')
    | some (.table .implied span sub) =>
      if rest.length < 2 then none
      else (putDotted rest value sub).map fun sub' => es.replace key.text (.table .implied span sub')
    | some (.tables items) =>
      match items.getLast? with
      | some (.table origin span sub) =>
        if rest.length < 2 then none
        else (putDotted rest value sub).map fun sub' =>
          es.replace key.text (.tables (items.dropLast ++ [.table origin span sub']))
      | _ => none
    | some _ => none

/-! ## Headers -/

/-- Change the entries of the table that the names lead to; tables on the way that do not
    exist yet are implied, and a name of several tables means the last of them. -/
def changeAt (change : Entries → Option Entries) : List Key → Entries → Option Entries
  | [], es => change es
  | key :: rest, es =>
    match es.get? key.text with
    | none => (changeAt change rest []).map fun sub => es ++ [(key, .table .implied none sub)]
    | some (.table .inline _ _) => none
    | some (.table origin span sub) =>
      (changeAt change rest sub).map fun sub' => es.replace key.text (.table origin span sub')
    | some (.tables items) =>
      match items.getLast? with
      | some (.table origin span sub) =>
        (changeAt change rest sub).map fun sub' =>
          es.replace key.text (.tables (items.dropLast ++ [.table origin span sub']))
      | _ => none
    | some _ => none

/-- Open a table under a new name, or one that was only implied so far: that one moves to
    the end. -/
def openTable (key : Key) (span : Span) (es : Entries) : Option Entries :=
  match es.get? key.text with
  | none => some (es ++ [(key, .table .header (some span) [])])
  | some (.table .implied _ sub) => some (es.remove key.text ++ [(key, .table .header (some span) sub)])
  | some _ => none

/-- Open one more of the tables of a name. -/
def openTables (key : Key) (span : Span) (es : Entries) : Option Entries :=
  match es.get? key.text with
  | none => some (es ++ [(key, .tables [.table .header (some span) []])])
  | some (.tables items) => some (es.replace key.text (.tables (items ++ [.table .header (some span) []])))
  | some _ => none

/-- Let the table that stands last under `key` reach to the byte `stop`. -/
def stretch (key : Key) (stop : Nat) (es : Entries) : Option Entries :=
  match es.get? key.text with
  | some (.table origin (some span) sub) => some (es.replace key.text (.table origin (some ⟨span.first, stop⟩) sub))
  | some (.tables items) =>
    match items.getLast? with
    | some (.table origin (some span) sub) =>
      some (es.replace key.text (.tables (items.dropLast ++ [.table origin (some ⟨span.first, stop⟩) sub])))
    | _ => some es
  | _ => some es

end Fleet.Toml

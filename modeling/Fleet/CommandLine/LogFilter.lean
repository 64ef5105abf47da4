/-
  Fleet.CommandLine.LogFilter — which events are logged. A filter is a list of directives
  between commas: a level alone is for every event, a level behind the name of a part of
  the program is for that part, and a name alone lets all of its events through. Of the
  directives that fit an event the one with the longest name decides.
-/

import Fleet.Event

namespace Fleet

/-- The loudest rank that is let through; 0 lets nothing through. -/
abbrev Loudness := Nat

structure LogDirective where
  /-- The part of the program it is for; the empty name is for all. -/
  source : String
  loudness : Loudness
  deriving DecidableEq, Repr

abbrev LogFilter := List LogDirective

namespace LogFilter

/-- The level that a word names, in letters of any case or as a digit. -/
def loudness? (word : String) : Option Loudness :=
  match word.toLower with
  | "off" | "0" => some 0
  | "error" | "1" => some 1
  | "warn" | "2" => some 2
  | "info" | "3" => some 3
  | "debug" | "4" => some 4
  | "trace" | "5" => some 5
  | _ => none

def isSourceChar (c : Char) : Bool := c.isAlphanum ∨ c = '_' ∨ c = ':' ∨ c = '-'

def directive? (word : String) : Option LogDirective :=
  let name := word.toList.takeWhile (· ≠ '=')
  match loudness? word, name.all isSourceChar && name ≠ [], word.toList.dropWhile (· ≠ '=') with
  | some loudness, _, _ => some ⟨"", loudness⟩
  | none, true, [] => some ⟨word, Level.trace.rank⟩
  | none, true, _ :: [] => some ⟨String.ofList name, Level.trace.rank⟩
  | none, true, _ :: level => (loudness? (String.ofList level)).map (⟨String.ofList name, ·⟩)
  | none, false, _ => none

def quiet : LogFilter := [⟨"", Level.error.rank⟩]

def standard : LogFilter := [⟨"", Level.info.rank⟩]

def parse (text : String) : Option LogFilter :=
  if text.isEmpty then some quiet else (text.splitOn ",").mapM directive?

def ofSetting (setting : Option String) : LogFilter := (setting.bind parse).getD standard

/-- The directive that decides: the longest name, and of equal names the last. -/
def deciding? (f : LogFilter) (source : String) : Option LogDirective :=
  (f.filter fun d => source.startsWith d.source).foldl (fun best d =>
    match best with
    | some b => if b.source.length ≤ d.source.length then some d else some b
    | none => some d) none

def admits (f : LogFilter) (e : Event) : Bool :=
  match f.deciding? e.source with
  | some d => e.level.rank ≤ d.loudness
  | none => false

end LogFilter

end Fleet

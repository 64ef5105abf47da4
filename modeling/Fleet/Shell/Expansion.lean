/-
  Fleet.Shell.Expansion — from the words of a script to the arguments of a command: every
  piece is filled in, and what was not quoted falls apart at its blanks.
-/

import Fleet.Shell.Arithmetic
import Fleet.Shell.Process

namespace Fleet.Shell

open Fleet.Text

inductive Fragment where
  | char (c : Char) (quoted : Bool)
  /-- There is a field here, even if it is empty. -/
  | present
  /-- One field ends and the next may begin. -/
  | split
  deriving DecidableEq, Repr

/-! ## Filling in -/

/-- How the output of a command is had. -/
abbrev Capture := Process → String → Process × Bytes

def fragments (quoted : Bool) (text : String) : List Fragment := text.toList.map (.char · quoted)

def argumentFragments (quoted : Bool) (arguments : List String) : List Fragment :=
  let one (a : String) : List Fragment := (if quoted then [.present] else []) ++ fragments quoted a
  (arguments.map one).intersperse [.split] |>.flatten

def dropLastNewlines (text : String) : String :=
  String.ofList (text.toList.reverse.dropWhile (· = '\n')).reverse

namespace Process

def integer? (p : Process) (name : String) : Option Int := Arithmetic.number? ((p.parameter? name).getD "")

def fillPiece (capture : Capture) (p : Process) : Piece → Process × List Fragment
  | .char c quoted => (p, [.char c quoted])
  | .quotes => (p, [.present])
  | .parameter name otherwise quoted =>
    if name = "@" ∨ name = "*" ∧ !quoted then (p, argumentFragments quoted p.arguments)
    else
      let value := (p.parameter? name).getD ""
      (p, fragments quoted (if value.isEmpty then otherwise.getD "" else value))
  | .length name quoted => (p, fragments quoted (toString ((p.parameter? name).getD "").length))
  | .arithmetic source quoted =>
    (p, fragments quoted (((Arithmetic.evaluate p.integer? source).map toString).getD ""))
  | .output source quoted =>
    let (p, bytes) := capture p source
    (p, fragments quoted (dropLastNewlines (ofBytes bytes)))

/-- Fill in the pieces of a word from the left. Quoted arguments alone are no field if
    there are none. -/
def fill (capture : Capture) (p : Process) (w : Word) : Process × List Fragment :=
  if w = [.quotes, .parameter "@" none true] then (p, argumentFragments true p.arguments)
  else w.foldl (fun (p, done) piece =>
    let (p, more) := p.fillPiece capture piece
    (p, done ++ more)) (p, [])

end Process

/-! ## Fields -/

/-- The fields of a word, `begun` being the one that is not over yet. -/
def fieldsFrom : Option (List Char) → List Fragment → List String
  | none, [] => []
  | some cs, [] => [String.ofList cs]
  | begun, .present :: rest => fieldsFrom (some (begun.getD [])) rest
  | begun, .split :: rest => (begun.map String.ofList).toList ++ fieldsFrom none rest
  | begun, .char c quoted :: rest =>
    if !quoted && (isBlank c || c == '\n') then (begun.map String.ofList).toList ++ fieldsFrom none rest
    else fieldsFrom (some (begun.getD [] ++ [c])) rest

/-- The characters of a word that stays whole. -/
def wholeOf (fs : List Fragment) : List (Char × Bool) :=
  fs.filterMap fun
    | .char c quoted => some (c, quoted)
    | .split => some (' ', true)
    | .present => none

namespace Process

def fields (capture : Capture) (p : Process) : List Word → Process × List String
  | [] => (p, [])
  | w :: rest =>
    let (p, fs) := p.fill capture w
    let (p, more) := fields capture p rest
    (p, fieldsFrom none fs ++ more)

def text (capture : Capture) (p : Process) (w : Word) : Process × String :=
  let (p, fs) := p.fill capture w
  (p, String.ofList ((wholeOf fs).map (·.1)))

end Process

/-! ## Patterns -/

/-- Whether a text fits a pattern. An unquoted star stands for any text and an unquoted
    question mark for any character. -/
def fits : List (Char × Bool) → List Char → Bool
  | [], cs => cs = []
  | ('*', false) :: pattern, cs => (List.range (cs.length + 1)).any fun n => fits pattern (cs.drop n)
  | (c, quoted) :: pattern, d :: cs => (c = d ∨ c = '?' ∧ !quoted) ∧ fits pattern cs
  | _ :: _, [] => false

end Fleet.Shell

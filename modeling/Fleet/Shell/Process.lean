/-
  Fleet.Shell.Process — a process while it runs: what it sees of the machine, its
  variables and streams, and the effects it has had, each with its instant.

  A process is followed from its start to its end at once. Its effects are kept so that
  they can be laid over those of processes that run at the same time (see
  `Fleet.System.Machine`); until then only the process itself sees them.
-/

import Fleet.Run.Clock
import Fleet.Shell.Numeral
import Fleet.System.Files

namespace Fleet.Shell

open Fleet.System Fleet.Text

/-! ## Effects -/

inductive Effect where
  | out (bytes : Bytes)
  | err (bytes : Bytes)
  | append (place : Place) (bytes : Bytes)
  | put (place : Place) (entry : Entry)
  | remove (place : Place)
  /-- It sends the launcher a signal that asks for a shutdown. -/
  | ask
  deriving DecidableEq, Repr

inductive Stream where
  | out
  | err
  | file (place : Place)
  /-- Whoever reads the output of a command. -/
  | capture
  deriving DecidableEq, Repr

/-! ## Processes -/

structure Process where
  files : Files
  clock : Instant
  /-- Latest first. -/
  effects : List (Instant × Effect) := []
  bindings : List (String × String) := []
  exported : List String := []
  name : String
  arguments : List String
  status : Nat := 0
  /-- The process's number; its parent's is one less. -/
  number : Nat := 2
  input : Bytes := []
  output : Stream := .out
  error : Stream := .err
  captured : Bytes := []
  /-- When the background jobs end that have been started and not been waited for. -/
  jobs : List (Option Instant) := []
  /-- When a background job kills the process. -/
  doom : Option Instant := none

/-- How a command leaves its process. -/
inductive Flow where
  | next
  | exit
  | killed (number signal : Nat)
  | never
  /-- Out of so many loops. -/
  | out (loops : Nat)
  /-- On to the next round of the loop so many out. -/
  | again (loops : Nat)
  deriving DecidableEq, Repr

namespace Process

variable (p : Process)

def launcher : Nat := 1

/-! ## Effects -/

def act (effect : Effect) : Process := { p with effects := (p.clock, effect) :: p.effects }

def write (stream : Stream) (bytes : Bytes) : Process :=
  if bytes = [] then p
  else match stream with
    | .out => p.act (.out bytes)
    | .err => p.act (.err bytes)
    | .file place => { p.act (.append place bytes) with files := p.files.append place bytes }
    | .capture => { p with captured := p.captured ++ bytes }

def print (text : String) : Process := p.write p.output (toBytes text)

def complain (text : String) : Process := p.write p.error (toBytes text)

def put (place : Place) (entry : Entry) : Process :=
  { p.act (.put place entry) with files := p.files.put place entry }

def remove (place : Place) : Process := { p.act (.remove place) with files := p.files.remove place }

def sleep (length : Nat) : Process := { p with clock := p.clock + length }

def done (status : Nat) : Process × Flow := ({ p with status }, .next)

def fail (status : Nat) (complaint : String) : Process × Flow := (p.complain (complaint ++ "\n")).done status

/-! ## Variables -/

def value? (name : String) : Option String := p.bindings.lookup name

def setVariable (name value : String) : Process :=
  { p with bindings := (name, value) :: p.bindings.filter (·.1 ≠ name) }

def unsetVariable (name : String) : Process := { p with bindings := p.bindings.filter (·.1 ≠ name) }

/-- The value of a parameter: a variable, an argument by its number, or one that tells of
    the process itself. -/
def parameter? (name : String) : Option String :=
  match name with
  | "?" => some (toString p.status)
  | "#" => some (toString p.arguments.length)
  | "$" => some (toString p.number)
  | "@" | "*" => some (" ".intercalate p.arguments)
  | "-" => some ""
  | "!" => some (toString (p.number + p.jobs.length))
  | "PPID" => some (toString (p.number - 1))
  | "0" => some p.name
  | name => match Numeral.decimal? name with
    | some (n + 1) => p.arguments[n]?
    | _ => p.value? name

/-! ## Descriptors -/

def stream? (descriptor : Nat) : Option Stream :=
  match descriptor with
  | 1 => some p.output
  | 2 => some p.error
  | _ => none

def setStream (descriptor : Nat) (stream : Stream) : Process :=
  match descriptor with
  | 1 => { p with output := stream }
  | 2 => { p with error := stream }
  | _ => p

end Process

end Fleet.Shell

/-
  Fleet.System.Machine — a machine on which workers run side by side: its files, what has
  been written to the launcher's streams, and the effects that running processes are yet
  to have.

  A process is followed to its end when it starts (`Course`). Its effects join those of
  all others and come in the order of their instants (`Machine.settle`).
-/

import Fleet.Run.Worker
import Fleet.Shell.Evaluation

namespace Fleet.System

open Fleet.Shell Fleet.Text

/-! ## Courses -/

/-- All that a process will do, first to last, and what becomes of it. -/
structure Course where
  effects : List (Instant × Effect)
  fate : Fate
  deriving Repr

/-- How a machine runs a program with its arguments and streams, from an instant on. -/
abbrev Execute := Files → Instant → (program : String) → (arguments : List String) → (output error : Stream) →
  Except Fault Course

def fateOf (p : Process) (flow : Flow) : Fate :=
  let own : Fate := match flow with
    | .never => .never
    | .killed _ _ => .ends p.clock (.exited none)
    | _ => .ends p.clock (.exited (some p.status))
  match p.doom, own with
  | some doom, .ends time ending => if doom < time then .ends doom (.exited none) else .ends time ending
  | some doom, .never => .ends doom (.exited none)
  | none, own => own

def execute : Execute := fun files now program arguments output error => do
  if (program :: arguments).any (·.contains '\x00') then .error .zeroInCommand
  else
    let (tool, before) ← files.command program
    let start : Process := { files, clock := now, name := program, arguments := before ++ arguments, output, error }
    let (p, flow) := Shell.run maxSteps tool ((before ++ arguments).map .text) start
    .ok ⟨p.effects.reverse, fateOf p flow⟩

/-! ## Machines -/

structure Machine where
  files : Files
  pending : List (Instant × Effect) := []
  out : List (Instant × Bytes) := []
  err : List (Instant × Bytes) := []
  asked : Option Instant := none
  deriving Repr

namespace Machine

variable (m : Machine)

def apply (time : Instant) : Effect → Machine
  | .out bytes => { m with out := m.out ++ [(time, bytes)] }
  | .err bytes => { m with err := m.err ++ [(time, bytes)] }
  | .append place bytes => { m with files := m.files.append place bytes }
  | .put place entry => { m with files := m.files.put place entry }
  | .remove place => { m with files := m.files.remove place }
  | .ask => m

/-- Let everything happen that is due. Of effects of one instant, the first started comes
    first. -/
def settle (now : Instant) : Machine :=
  let due := (m.pending.filter (·.1 ≤ now)).mergeSort fun a b => a.1 ≤ b.1
  due.foldl (fun m (time, effect) => m.apply time effect) { m with pending := m.pending.filter (now < ·.1) }

def settleAll : Machine := m.settle ((m.pending.map (·.1)).foldl max 0)

def accept (c : Course) : Machine :=
  let asks := c.effects.filterMap fun (time, effect) => if effect = .ask then some time else none
  { m with pending := m.pending ++ c.effects, asked := earlier? m.asked asks.min? }

/-- Text that was written to a stream, with what was printed at the same instants before it. -/
def interleave (printed : List (Instant × String)) (written : List (Instant × Bytes)) : String :=
  let all := printed.map (fun (time, line) => (time, toBytes line)) ++ written
  ofBytes ((all.mergeSort fun a b => a.1 ≤ b.1).flatMap (·.2))

/-! ## A machine to start with -/

/-- The programs of the system, and the launcher, which scripts find by its number. -/
def systemEntries : List (Place × Entry) :=
  [(["bin"], .directory), (["usr"], .directory), (["usr", "bin"], .directory), (["tmp"], .directory),
    (["dev"], .directory), (["dev", "null"], .null), (["proc"], .directory), (["proc", "1"], .directory),
    (["proc", "1", "exe"], .program CommandLine.programName)] ++
  Tool.names.flatMap fun name => [(["bin", name], .program name), (["usr", "bin", name], .program name)]

def fresh : Machine := { files := ⟨systemEntries ++ [(["work"], .directory)], ["work"]⟩ }

def provide (path : String) (entry : Entry) : Machine :=
  let files := match Path.parent? path with
    | some dir => (m.files.makeDirectories dir).1
    | none => m.files
  match files.follow path with
  | .ok place => { m with files := files.put place entry }
  | .error _ => { m with files }

def workFiles : List (String × Bytes) :=
  m.files.entries.filterMap fun (place, entry) =>
    match m.files.here.isPrefixOf place, entry with
    | true, .file content _ => some ("/".intercalate (place.drop m.files.here.length), content)
    | _, _ => none

end Machine

end Fleet.System

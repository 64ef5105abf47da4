/-
  Fleet.CommandLine.Call — what a command line asks the launcher to do (`Call.parse`).

  There are three levels: the launcher, its commands, and for `plan` the role. The
  settings file may be named at every level and the format of a plan from `plan` on; what
  is said further in counts. The faults of an inner level come before those that only the
  end of an outer level's words brings to light.
-/

import Fleet.CommandLine.Flags
import Fleet.Plan

namespace Fleet

inductive Task where
  | servers (flags : ServerFlags) (run : RunFlags)
  | clients (flags : ClientFlags) (run : RunFlags)
  | planServers (flags : ServerFlags) (format : PlanFormat)
  | planClients (flags : ClientFlags) (format : PlanFormat)
  deriving DecidableEq, Repr

structure Call where
  config : Option String
  task : Task
  deriving DecidableEq, Repr

/-- The flags that every level has, and those that are for plans. -/
structure SharedFlags where
  config : Option String := none
  format : Option PlanFormat := none
  deriving DecidableEq, Repr, Inhabited

namespace SharedFlags

/-- What is said further in counts. -/
def within (outer inner : SharedFlags) : SharedFlags where
  config := inner.config <|> outer.config
  format := inner.format <|> outer.format

end SharedFlags

namespace CommandLine

def readFormat : ReadValue PlanFormat := fun word =>
  match PlanFormat.ofLabel? word.shown with
  | some format => .ok format
  | none => .error .unlisted

def configFlag : Flag SharedFlags := .single "config" none "CONFIG" readShownPath fun v s => { s with config := some v }

def formatFlag : Flag SharedFlags := .single "format" none "FORMAT" readFormat fun v s => { s with format := some v }

def programName : String := "pung-launch"

def about : List String → String
  | [_, "servers"] => "Start the server workers owned by this VM"
  | [_, "clients"] => "Run the client sweep for this VM: every target, every trial"
  | [_, "plan"] => "Print placement and commands without starting anything"
  | _ => "Pung experiment launcher: partitions roles across VMs and starts workers"

def versionLine (path : List String) : String := "-".intercalate path ++ " 0.1.0"

variable {σ : Type}

/-- The words of a command without subcommands, among them the shared flags. -/
def readLeaf (path : List String) (shared : List (Flag SharedFlags)) (flags : List (Flag σ)) (start : σ)
    (words : List OsText) : Except Stop (SharedFlags × σ) :=
  Grammar.read ⟨path, paired shared flags, []⟩ ({}, start) words

/-- The words of a command with subcommands, of which `inner` reads one. Help is given if
    nothing at all is said. -/
def readBranch (path : List String) (shared : List (Flag SharedFlags)) (subcommands : List String)
    (inner : String → List OsText → Except Stop (SharedFlags × σ)) (words : List OsText) :
    Except Stop (SharedFlags × σ) := do
  let reading ← Grammar.readWords ⟨path, shared, subcommands ++ ["help"]⟩ words false { values := {} }
  match reading.next with
  | some ("help", _) => throw (.help path true)
  | some (name, rest) => do
    let (near, value) ← inner name rest
    let outer ← reading.progress.settle
    return (outer.values.within near, value)
  | none => do
    let outer ← reading.progress.settle
    if outer.seen = [] then throw (.help path false)
    else throw (.fault (.missingSubcommand (" ".intercalate path)))

def readPlan (words : List OsText) : Except Stop (SharedFlags × (PlanFormat → Task)) :=
  let shared := [configFlag, formatFlag]
  readBranch [programName, "plan"] shared ["servers", "clients"] (fun name words =>
    let path := [programName, "plan", name]
    if name == "servers" then do
      let (near, flags) ← readLeaf path shared ServerFlags.table {} words
      return (near, Task.planServers flags)
    else do
      let (near, flags) ← readLeaf path shared ClientFlags.table {} words
      return (near, Task.planClients flags)) words

end CommandLine

open CommandLine in
def Call.parse (words : List OsText) : Except Stop Call := do
  let shared := [configFlag]
  let (near, task) ← readBranch [programName] shared ["servers", "clients", "plan"] (fun name words =>
    let path := [programName, name]
    if name == "servers" then do
      let (near, flags, run) ← readLeaf path shared (paired ServerFlags.table RunFlags.table) ({}, {}) words
      return (near, Task.servers flags run)
    else if name == "clients" then do
      let (near, flags, run) ← readLeaf path shared (paired ClientFlags.table RunFlags.table) ({}, {}) words
      return (near, Task.clients flags run)
    else do
      let (near, task) ← readPlan words
      return (near, task (near.format.getD .text))) words
  return ⟨near.config, task⟩

end Fleet

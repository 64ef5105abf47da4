/-
  Fleet.Worker.Command — a worker as the launcher starts it: a program, its arguments and
  where its output goes. `Command.line` is the command as one would type it into a shell.
-/

import Fleet.Scheme
import Fleet.Shell.Quote

namespace Fleet

inductive Output where
  | inherit
  /-- To the end of a log file, created on first use. -/
  | append (path : String)
  deriving DecidableEq, Repr

structure Command where
  role : Role
  /-- The worker's place in its batch. -/
  slot : UInt32
  program : String
  args : List String
  output : Output
  deriving DecidableEq, Repr

namespace Command

/-- The command as a line of shell that does the same. -/
def line (c : Command) : String :=
  " ".intercalate ((c.program :: c.args).map Shell.quote) ++
    match c.output with
    | .inherit => ""
    | .append path => " >> " ++ Shell.quote path

end Command

end Fleet

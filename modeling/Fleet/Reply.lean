/-
  Fleet.Reply — what the launcher answers: an exit code, two streams and a log. A call that
  cannot be followed, a launch that cannot be built and a plan are answered at once.
-/

import Fleet.CommandLine.Call
import Fleet.Event
import Fleet.Failure

namespace Fleet

structure Reply where
  code : Nat
  out : String := ""
  err : String := ""
  events : List Event := []

namespace Reply

def ofStop : CommandLine.Stop → Reply
  | .fault fault => { code := 2, err := fault.message ++ "\n" }
  | .version path => { code := 0, out := CommandLine.versionLine path ++ "\n" }
  | .help path true => { code := 0, out := CommandLine.about path ++ "\n" }
  | .help path false => { code := 2, err := CommandLine.about path ++ "\n" }

def ofFailure (events : List Event) (failure : Failure) : Reply :=
  { code := 1, err := unlines failure.report, events }

def ofPlan (events : List Event) : Except PlanError String → Reply
  | .ok text => { code := 0, out := text, events }
  | .error error => ofFailure events (.plan error)

end Reply

end Fleet

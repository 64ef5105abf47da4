/-
  Fleet.Run.Worker — a started worker and what becomes of it, and everything a run does
  that can be seen from outside, in order (`Act`): lines it prints, events it logs,
  workers it starts.
-/

import Fleet.Event
import Fleet.Run.Clock
import Fleet.Worker.Command

namespace Fleet

/-! ## Workers -/

inductive Ending where
  /-- It exited with a code, or (no code) was killed by a signal. -/
  | exited (code : Option Int)
  | notStarted (error : String)
  /-- It cannot be waited for, so nobody knows. -/
  | lost
  deriving DecidableEq, Repr

namespace Ending

def isSuccess (e : Ending) : Bool := e == .exited (some 0)

end Ending

/-- What becomes of a worker, decided when it starts. -/
inductive Fate where
  | never
  | ends (time : Instant) (ending : Ending)
  deriving DecidableEq, Repr

structure Worker where
  slot : UInt32
  started : Instant
  fate : Fate
  deriving DecidableEq, Repr

namespace Worker

def endTime? (w : Worker) : Option Instant :=
  match w.fate with
  | .never => none
  | .ends time _ => some time

/-- The first of two workers to end; of two that end together, the first started. -/
def before (a b : Worker) : Bool :=
  match a.endTime?, b.endTime? with
  | some s, some t => s ≤ t
  | some _, none => true
  | none, some _ => false
  | none, none => true

/-- Workers in the order in which they end, those that never do at the end. -/
def inEndOrder (workers : List Worker) : List Worker := workers.mergeSort before

/-- What is said about a worker that has ended, with `remaining` others still awaited. -/
def farewell (w : Worker) (remaining : Nat) (ending : Ending) : List Event :=
  match ending with
  | .exited code =>
    .finished w.slot ending.isSuccess remaining :: if ending.isSuccess then [] else [.exitedBadly w.slot code]
  | .notStarted error => [.finished w.slot false remaining, .didNotRun w.slot error]
  | .lost => [.waitFailed]

end Worker

/-! ## Acts -/

inductive Act where
  | print (line : String)
  | say (event : Event)
  | start (worker : Worker)
  deriving DecidableEq, Repr

namespace Act

def line? : Act → Option String
  | .print line => some line
  | _ => none

def event? : Act → Option Event
  | .say event => some event
  | _ => none

def worker? : Act → Option Worker
  | .start worker => some worker
  | _ => none

end Act

def linesOf (acts : List Act) : List String := acts.filterMap Act.line?

def eventsOf (acts : List Act) : List Event := acts.filterMap Act.event?

def workersOf (acts : List Act) : List Worker := acts.filterMap Act.worker?

end Fleet

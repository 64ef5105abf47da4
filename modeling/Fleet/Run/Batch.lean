/-
  Fleet.Run.Batch — a batch of workers: all are started at one instant, in order, and then
  awaited together.

  The wait ends when the last worker has ended, when the shutdown flag is up, or at the
  deadline, whichever is first; where two are together, the flag goes before the
  deadline and both before a worker. Workers that are still running then are left alone.
-/

import Fleet.Run.Summary
import Fleet.Run.Worker

namespace Fleet

/-! ## Hosts -/

structure Start where
  events : List Event := []
  fate : Fate
  deriving DecidableEq, Repr

/-- A place where workers run. Its state `σ` changes with every start. -/
structure Host (σ : Type) where
  start : σ → Instant → Command → σ × Start
  asked : σ → Option Instant

/-- Why a run never returns. -/
inductive Halt where
  | clockOverflow
  | endless
  deriving DecidableEq, Repr

def Halt.message : Halt → String
  | .clockOverflow => "overflow when adding duration to instant"
  | .endless => "waiting for a worker that never ends"

structure Ran (σ α : Type) where
  place : σ
  clock : Instant
  acts : List Act
  result : Except Halt α

/-! ## Starting -/

namespace Host

variable {σ : Type} (h : Host σ)

/-- Start commands in order: each is printed, logged and then started. -/
def startAll (now : Instant) : σ → List Command → σ × List Act
  | place, [] => (place, [])
  | place, c :: rest =>
    let (place, started) := h.start place now c
    let (last, acts) := startAll now place rest
    (last, [.print c.line, .say (.launching c.role c.slot c.line), .start ⟨c.slot, now, started.fate⟩] ++
      started.events.map .say ++ acts)

end Host

/-! ## Waiting -/

def BatchSummary.record (s : BatchSummary) : Ending → BatchSummary
  | .exited (some 0) => { s with succeeded := s.succeeded + 1 }
  | .exited _ | .lost => { s with failed := s.failed + 1 }
  | .notStarted _ => { s with startFailed := s.startFailed + 1 }

inductive Cut where
  | shutdown
  | deadline
  deriving DecidableEq, Repr

namespace Cut

def close (running : Nat) (s : BatchSummary) : Cut → Event × BatchSummary
  | .shutdown => (.leftRunning running, { s with interrupted := true })
  | .deadline => (.abandoned (UInt32.ofNat running), { s with timedOut := UInt32.ofNat running })

/-- The first cut, and when, if the shutdown flag is up from `raised` on. -/
def first? (raised deadline : Option Instant) : Option (Instant × Cut) :=
  match raised, deadline with
  | some z, some d => if z ≤ d then some (z, .shutdown) else some (d, .deadline)
  | some z, none => some (z, .shutdown)
  | none, some d => some (d, .deadline)
  | none, none => none

end Cut

/-- The end of a wait: what was said, and the summary with its instant, if there is an end. -/
abbrev Waited := List Event × Option (Instant × BatchSummary)

/-- Wait for workers that are listed in the order in which they end. -/
def wait (cut : Option (Instant × Cut)) : List Worker → Instant → BatchSummary → Waited
  | [], now, s => ([], some (now, s))
  | w :: rest, now, s =>
    let join (time : Instant) (ending : Ending) : Waited :=
      let (events, last) := wait cut rest time (s.record ending)
      (w.farewell rest.length ending ++ events, last)
    let close (time : Instant) (c : Cut) : Waited :=
      let (event, last) := c.close (rest.length + 1) s
      ([event], some (max now time, last))
    match w.fate, cut with
    | .ends time ending, none => join time ending
    | .ends time ending, some (t, c) => if t ≤ time then close t c else join time ending
    | .never, some (t, c) => close t c
    | .never, none => ([], none)

/-! ## Batches -/

variable {σ : Type}

/-- Start a batch and wait for it. The shutdown flag is up from `raised` on, unless a
    worker asks for it sooner. -/
def Host.batch (h : Host σ) (pacing : Pacing) (raised : Option Instant) (now : Instant) (place : σ)
    (commands : List Command) : Ran σ BatchSummary :=
  let (place, acts) := h.startAll now place commands
  let ran (clock : Instant) (events : List Event) (result : Except Halt BatchSummary) : Ran σ BatchSummary :=
    ⟨place, clock, acts ++ events.map .say, result⟩
  let run (deadline : Option Instant) : Ran σ BatchSummary :=
    let cut := Cut.first? (earlier? raised (h.asked place)) deadline
    match wait cut (Worker.inEndOrder (workersOf acts)) now { launched := UInt32.ofNat commands.length } with
    | (events, some (clock, summary)) => ran clock events (.ok summary)
    | (events, none) => ran now events (.error .endless)
  match pacing.timeout with
  | none => run none
  | some length =>
    match Clock.deadline? now length with
    | some deadline => run (some deadline)
    | none => ran now [] (.error .clockOverflow)

end Fleet

/-
  Fleet.Run.Session — one launcher over several batches and launches: a clock, the
  shutdown flag and the workers started so far. A worker that its batch left behind
  goes on and ends when it would have ended anyway (`Session.ended`).
-/

import Fleet.Run.Sweep
import Fleet.Run.Switch

namespace Fleet

structure Session (σ : Type) where
  host : Host σ
  pacing : Pacing
  place : σ
  clock : Instant := 0
  switch : Switch := {}
  workers : List Worker := []

namespace Session

variable {σ α : Type} (s : Session σ)

def raised : Option Instant := s.switch.raisedFrom s.clock

def after (ran : Ran σ α) : Session σ :=
  { s with
    place := ran.place, clock := ran.clock, switch := s.switch.advance ran.clock
    workers := s.workers ++ workersOf ran.acts }

def batch (commands : List Command) : Ran σ BatchSummary := s.host.batch s.pacing s.raised s.clock s.place commands

def servers (l : ServerLaunch) : Ran σ SweepSummary :=
  (l.run s.host s.pacing s.raised s.clock s.place).conclude fun _ => []

def clients (l : ClientLaunch) : Ran σ SweepSummary :=
  (l.run s.host s.pacing s.raised s.clock s.place).conclude fun _ => []

def advance (length : Nat) : Session σ :=
  { s with clock := s.clock + length, switch := s.switch.advance (s.clock + length) }

/-- The workers that have ended so far and were waited for or not, with their numbers in
    start order and when they ended. A worker that is lost counts as never ended. -/
def ended : List (Nat × Instant) :=
  s.workers.zipIdx.filterMap fun (w, number) =>
    match w.fate with
    | .never | .ends _ .lost => none
    | .ends time _ => if time ≤ s.clock then some (number, time) else none

end Session

/-! ## Hosts without processes -/

namespace Host

/-- Nothing is started; every worker is done at once. -/
def dryRun : Host Unit where
  start := fun _ now _ => ((), { fate := .ends now (.exited (some 0)) })
  asked := fun _ => none

structure Part where
  length : Nat
  ending : Option Ending
  deriving DecidableEq, Repr

/-- Each worker plays the next part of a script that is played over and over. The state
    is the number of workers started. -/
def scripted (script : List Part) : Host Nat where
  start := fun number now _ =>
    let fate := match script[number % script.length]? with
      | some ⟨length, some ending⟩ => Fate.ends (now + length) ending
      | _ => .never
    (number + 1, { fate })
  asked := fun _ => none

end Host

end Fleet

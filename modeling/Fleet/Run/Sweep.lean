/-
  Fleet.Run.Sweep — launches in action: a server launch is one batch; a client launch is
  one batch for each point of its sweep, with a pause after each. A batch or a pause that
  the shutdown flag cuts short is the last.
-/

import Fleet.Launch
import Fleet.Run.Batch

namespace Fleet

variable {σ : Type}

/-! ## Pauses -/

/-- The pause after a trial: when it is over, and whether the shutdown flag ended it. -/
def Pacing.pause (pacing : Pacing) (raised : Option Instant) (now : Instant) : Instant × Bool :=
  let full := Clock.pauseEnd now pacing.settle
  match raised with
  | some z => if z ≤ full then (max now z, true) else (full, false)
  | none => (full, false)

/-! ## Servers -/

def ServerLaunch.run (l : ServerLaunch) (h : Host σ) (pacing : Pacing) (raised : Option Instant) (now : Instant)
    (place : σ) : Ran σ SweepSummary :=
  let ran := h.batch pacing raised now place l.commands
  { ran with result := ran.result.map ({} : SweepSummary).absorb }

/-! ## Clients -/

namespace ClientLaunch

variable (l : ClientLaunch)

def opening (r : ExperimentRun) : Event := .trialStarted r.target r.trial (l.extraFor r.target)

def closing (r : ExperimentRun) (s : BatchSummary) : Event :=
  .trialComplete r.target r.trial s.succeeded (s.failed + s.startFailed)

/-- The next `n` points of a sweep, from point `k` on, after a start with the given totals. -/
def runFrom (h : Host σ) (pacing : Pacing) (raised : Option Instant) :
    (n k : Nat) → Instant → σ → SweepSummary → Ran σ SweepSummary
  | 0, _, now, place, total => ⟨place, now, [], .ok total⟩
  | n + 1, k, now, place, total =>
    match l.runAt? k with
    | none => ⟨place, now, [], .ok total⟩
    | some r =>
      let ran := h.batch pacing raised now place (l.commandsFor r.target)
      match ran.result with
      | .error halt => ⟨ran.place, ran.clock, .say (l.opening r) :: ran.acts, .error halt⟩
      | .ok s =>
        let acts := .say (l.opening r) :: ran.acts ++ [.say (closing r s)]
        if s.interrupted then ⟨ran.place, ran.clock, acts, .ok (total.absorb s)⟩
        else match pacing.pause (earlier? raised (h.asked ran.place)) ran.clock with
          | (clock, true) =>
            ⟨ran.place, clock, acts ++ [.say .trialsSkipped], .ok { total.absorb s with interrupted := true }⟩
          | (clock, false) =>
            let rest := runFrom h pacing raised n (k + 1) clock ran.place (total.absorb s)
            { rest with acts := acts ++ rest.acts }

def run (h : Host σ) (pacing : Pacing) (raised : Option Instant) (now : Instant) (place : σ) : Ran σ SweepSummary :=
  l.runFrom h pacing raised l.runCount 0 now place {}

end ClientLaunch

/-! ## Reports -/

namespace Ran

/-- What is said of the totals at the end. -/
def conclude (ran : Ran σ SweepSummary) (closing : SweepSummary → List Event) : Ran σ SweepSummary :=
  match ran.result with
  | .ok total => { ran with acts := ran.acts ++ (Event.launchFinished total :: closing total).map .say }
  | .error _ => ran

def announce (ran : Ran σ SweepSummary) (event : Event) : Ran σ SweepSummary :=
  { ran with acts := .say event :: ran.acts }

end Ran

def ServerLaunch.perform (l : ServerLaunch) (dryRun : Bool) (h : Host σ) (pacing : Pacing)
    (raised : Option Instant) (place : σ) : Ran σ SweepSummary :=
  ((l.run h pacing raised 0 place).announce (.serversStarting l.vmId l.invocations.length dryRun)).conclude
    fun total => if total.interrupted then [.serversInterrupted] else []

def ClientLaunch.perform (l : ClientLaunch) (dryRun : Bool) (h : Host σ) (pacing : Pacing)
    (raised : Option Instant) (place : σ) : Ran σ SweepSummary :=
  ((l.run h pacing raised 0 place).announce (.clientsStarting l.slots.length l.targets l.trials dryRun)).conclude
    fun total => if total.interrupted then [.clientsInterrupted] else []

end Fleet

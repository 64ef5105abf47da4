/-
  Fleet.Launcher — the launcher as a program: a command line and a machine in, an exit
  code, two streams, a log and the machine afterwards out (`Launcher.run`).
-/

import Fleet.Reply
import Fleet.Run.Session
import Fleet.Settings.Load
import Fleet.Settings.Resolve
import Fleet.Worker.Spawn

namespace Fleet

open Fleet.System

/-! ## Launches on a machine -/

structure Performance where
  acts : List Act
  clock : Instant
  machine : Machine
  result : Except Halt SweepSummary

namespace Performance

/-- The lines that were printed, each with the instant of the start that follows it. -/
def timedLines : List Act → List String → List (Instant × String)
  | [], _ => []
  | .print line :: rest, waiting => timedLines rest (waiting ++ [line])
  | .start w :: rest, waiting => waiting.map (fun line => (w.started, line ++ "\n")) ++ timedLines rest []
  | .say _ :: rest, waiting => timedLines rest waiting

variable (p : Performance)

def final : Machine := p.machine.settle p.clock

/-- All that the launcher and its workers wrote to standard output by the end of `m`. -/
def outputOn (m : Machine) : String := Machine.interleave (timedLines p.acts []) m.out

def events : List Event := eventsOf p.acts

end Performance

def Ran.dry (ran : Ran Unit SweepSummary) (m : Machine) : Performance := ⟨ran.acts, ran.clock, m, ran.result⟩

def Ran.real (ran : Ran Machine SweepSummary) : Performance := ⟨ran.acts, ran.clock, ran.place, ran.result⟩

def ServerLaunch.performOn (l : ServerLaunch) (dryRun : Bool) (pacing : Pacing) (raised : Option Instant)
    (m : Machine) : Performance :=
  if dryRun then (l.perform true Host.dryRun pacing raised ()).dry m
  else (l.perform false (Machine.host execute) pacing raised m).real

def ClientLaunch.performOn (l : ClientLaunch) (dryRun : Bool) (pacing : Pacing) (raised : Option Instant)
    (m : Machine) : Performance :=
  if dryRun then (l.perform true Host.dryRun pacing raised ()).dry m
  else (l.perform false (Machine.host execute) pacing raised m).real

/-! ## The program -/

structure Outcome extends Reply where
  machine : Machine
  /-- How long the call took. -/
  clock : Instant

namespace Outcome

def atOnce (m : Machine) (r : Reply) : Outcome := { r with machine := m, clock := 0 }

/-- A launch that was performed. The program is over when nobody writes to its streams
    any more; the files are as the end of the launch found them. -/
def ofPerformance (before : List Event) (p : Performance) : Outcome :=
  let last := p.machine.settleAll
  let signals := match p.machine.asked with
    | some time => if time ≤ p.clock then [Event.signalReceived] else []
    | none => []
  let err := Machine.interleave [] last.err
  let ended (code : Nat) (err : String) : Outcome :=
    { code, out := p.outputOn last, err, events := before ++ p.events ++ signals, machine := p.final, clock := p.clock }
  match p.result with
  | .ok _ => ended 0 err
  | .error halt => ended 101 (err ++ halt.message ++ "\n")

def ofLaunch {α : Type} (m : Machine) (role : Role) (built : Logged LaunchError α)
    (handle : α → List Event → Outcome) : Outcome :=
  match built.result with
  | .ok launch => handle launch built.events
  | .error error => .atOnce m (.ofFailure built.events (.launch role error))

theorem ofLaunch_of_ok {α : Type} {m : Machine} {role : Role} {built : Logged LaunchError α}
    {handle : α → List Event → Outcome} {launch : α} (h : built.result = .ok launch) :
    ofLaunch m role built handle = handle launch built.events := by
  rw [ofLaunch, h]

theorem ofLaunch_of_error {α : Type} {m : Machine} {role : Role} {built : Logged LaunchError α}
    {handle : α → List Event → Outcome} {error : LaunchError} (h : built.result = .error error) :
    ofLaunch m role built handle = .atOnce m (.ofFailure built.events (.launch role error)) := by
  rw [ofLaunch, h]

end Outcome

namespace Launcher

def perform (localIp : String) (m : Machine) (file : FileSettings) : Task → Outcome
  | .servers flags run =>
    .ofLaunch m .server (flags.launch file localIp) fun l events =>
      .ofPerformance events (l.performOn run.dryRun (run.pacing file) none m)
  | .clients flags run =>
    .ofLaunch m .client (flags.launch file) fun l events =>
      .ofPerformance events (l.performOn run.dryRun (run.pacing file) none m)
  | .planServers flags format =>
    .ofLaunch m .server (flags.launch file localIp) fun l events => .atOnce m (.ofPlan events (l.plan format))
  | .planClients flags format =>
    .ofLaunch m .client (flags.launch file) fun l events => .atOnce m (.ofPlan events (.ok (l.plan format)))

/-- The program that the workers of a call run, if it has workers. -/
def program? (m : Machine) (words : List OsText) : Option String :=
  match Call.parse words with
  | .error _ => none
  | .ok call =>
    match FileSettings.load m.files call.config, call.task with
    | .ok file, .servers flags _ => some (flags.program file)
    | .ok file, .clients flags _ => some (flags.program file)
    | _, _ => none

def run (localIp : String) (m : Machine) (words : List OsText) : Outcome :=
  match Call.parse words with
  | .error stop => .atOnce m (.ofStop stop)
  | .ok call =>
    match FileSettings.load m.files call.config with
    | .error error => .atOnce m (.ofFailure [] (.settings error))
    | .ok file => perform localIp m file call.task

end Launcher

end Fleet

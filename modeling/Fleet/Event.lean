/-
  Fleet.Event — everything the launcher says to its log, as values: what happened
  (`Event`), how loud it is (`Level`), which part of the program says it (`source`), and
  the text and named fields a log line carries (`message`, `fields`).

  Events are data that every stage returns beside its result; nothing is printed where it
  happens. A log filter reads only `level` and `source` (see `Fleet.CommandLine.LogFilter`).
-/

import Fleet.Scheme
import Fleet.Placement.IdRange
import Fleet.Run.Summary

namespace Fleet

/-! ## Levels -/

inductive Level where
  | error
  | warn
  | info
  | debug
  | trace
  deriving DecidableEq, Repr

namespace Level

/-- Louder levels have smaller ranks. -/
def rank : Level → Nat
  | .error => 1
  | .warn => 2
  | .info => 3
  | .debug => 4
  | .trace => 5

def label : Level → String
  | .error => "ERROR"
  | .warn => "WARN"
  | .info => "INFO"
  | .debug => "DEBUG"
  | .trace => "TRACE"

end Level

/-! ## Events -/

inductive Event where
  /-- The last server ids belong to no VM. -/
  | unevenServers (totalServers serverVms : UInt32) (unassigned : IdRange)
  /-- The last clients are started by no VM. -/
  | unevenClients (totalClients clientVms unassigned : UInt32)
  | fewClients (totalServers totalClients : UInt32)
  | sliceComputed (vmId first count : UInt32)
  | serversPlaced (vmId first servers capacity : UInt32)
  | clientsPlaced (vmId clients first servers : UInt32) (targets : Nat) (trials : UInt32)
  | serversStarting (vmId : UInt32) (servers : Nat) (dryRun : Bool)
  | clientsStarting (clients : Nat) (targets : List UInt32) (trials : UInt32) (dryRun : Bool)
  | launching (role : Role) (slot : UInt32) (line : String)
  | started (role : Role) (slot : UInt32)
  | startFailed (role : Role) (slot : UInt32) (program error : String)
  | finished (slot : UInt32) (success : Bool) (remaining : Nat)
  /-- A worker exited with another code than 0, or (no code) was killed by a signal. -/
  | exitedBadly (slot : UInt32) (code : Option Int)
  | didNotRun (slot : UInt32) (error : String)
  | waitFailed
  /-- A batch was cut short by a shutdown request. -/
  | leftRunning (running : Nat)
  /-- A batch was given up at its deadline. -/
  | abandoned (running : UInt32)
  | trialStarted (target trial : UInt32) (extra : Int)
  | trialComplete (target trial succeeded failed : UInt32)
  /-- The pause between trials was cut short by a shutdown request. -/
  | trialsSkipped
  | launchFinished (totals : SweepSummary)
  | serversInterrupted
  | clientsInterrupted
  | signalReceived
  deriving DecidableEq, Repr

namespace Event

def level : Event → Level
  | .unevenServers .. | .unevenClients .. | .fewClients .. | .startFailed .. | .exitedBadly ..
  | .didNotRun .. | .waitFailed | .leftRunning .. | .abandoned .. | .trialsSkipped
  | .serversInterrupted | .clientsInterrupted => .warn
  | .sliceComputed .. | .started .. | .finished .. => .debug
  | .serversPlaced .. | .clientsPlaced .. | .serversStarting .. | .clientsStarting .. | .launching ..
  | .trialStarted .. | .trialComplete .. | .launchFinished .. | .signalReceived => .info

/-- The part of the program that says it, as a log filter names it. -/
def source : Event → String
  | .unevenServers .. | .unevenClients .. | .fewClients .. => "pung_placement::topology"
  | .sliceComputed .. => "pung_placement::placer"
  | .serversPlaced .. | .clientsPlaced .. => "pung_launcher::plan"
  | .started .. | .startFailed .. => "pung_launcher::spawner"
  | .launching .. | .finished .. | .exitedBadly .. | .didNotRun .. | .waitFailed | .leftRunning ..
  | .abandoned .. | .trialStarted .. | .trialComplete .. | .trialsSkipped | .launchFinished .. =>
    "pung_launcher::sweep"
  | .serversStarting .. | .serversInterrupted => "pung_launch::commands::servers"
  | .clientsStarting .. | .clientsInterrupted => "pung_launch::commands::clients"
  | .signalReceived => "pung_launch"

def message : Event → String
  | .unevenServers .. => "uneven server split; trailing server ids have no owner"
  | .unevenClients .. => "uneven client split; trailing clients are never started"
  | .fewClients .. => "fewer clients than servers; servers will expect zero clients"
  | .sliceComputed .. => "computed server slice"
  | .serversPlaced .. => "server placement computed"
  | .clientsPlaced .. => "client placement computed"
  | .serversStarting .. => "launching server workers"
  | .clientsStarting .. => "starting client sweep"
  | .launching .. => "launching worker"
  | .started .. => "worker started"
  | .startFailed .. => "worker failed to start"
  | .finished .. => "worker finished"
  | .exitedBadly .. => "worker exited unsuccessfully"
  | .didNotRun .. => "worker did not run"
  | .waitFailed => "worker wait task failed"
  | .leftRunning .. => "shutdown requested; leaving running workers alone"
  | .abandoned .. => "worker timeout expired; abandoning batch"
  | .trialStarted .. => "starting trial"
  | .trialComplete .. => "trial complete"
  | .trialsSkipped => "shutdown requested; skipping remaining trials"
  | .launchFinished .. => "launch finished"
  | .serversInterrupted => "server launch interrupted"
  | .clientsInterrupted => "client sweep interrupted; remaining trials skipped"
  | .signalReceived => "shutdown signal received"

def codeText : Option Int → String
  | some code => s!"Some({code})"
  | none => "None"

def targetsText (targets : List UInt32) : String :=
  "[" ++ ", ".intercalate (targets.map toString) ++ "]"

def fields : Event → List (String × String)
  | .unevenServers servers vms ids =>
    [("total_servers", toString servers), ("server_vms", toString vms), ("unassigned_ids", ids.text)]
  | .unevenClients clients vms left =>
    [("total_clients", toString clients), ("client_vms", toString vms), ("unassigned", toString left)]
  | .fewClients servers clients =>
    [("total_servers", toString servers), ("total_clients", toString clients)]
  | .sliceComputed vmId first count =>
    [("vm_id", toString vmId), ("first", toString first), ("count", toString count)]
  | .serversPlaced vmId first servers capacity =>
    [("vm_id", toString vmId), ("first_server", toString first), ("servers", toString servers),
      ("capacity", toString capacity)]
  | .clientsPlaced vmId clients first servers targets trials =>
    [("vm_id", toString vmId), ("clients", toString clients), ("first_server", toString first),
      ("servers", toString servers), ("targets", toString targets), ("trials", toString trials)]
  | .serversStarting vmId servers dryRun =>
    [("vm_id", toString vmId), ("servers", toString servers), ("dry_run", toString dryRun)]
  | .clientsStarting clients targets trials dryRun =>
    [("clients", toString clients), ("targets", targetsText targets), ("trials", toString trials),
      ("dry_run", toString dryRun)]
  | .launching role slot line => [("role", role.label), ("slot", toString slot), ("command", line)]
  | .started role slot => [("role", role.label), ("slot", toString slot)]
  | .startFailed role slot program error =>
    [("role", role.label), ("slot", toString slot), ("program", program), ("error", error)]
  | .finished slot success remaining =>
    [("slot", toString slot), ("success", toString success), ("remaining", toString remaining)]
  | .exitedBadly slot code => [("slot", toString slot), ("code", codeText code)]
  | .didNotRun slot error => [("slot", toString slot), ("error", error)]
  | .leftRunning running => [("running", toString running)]
  | .abandoned running => [("running", toString running)]
  | .trialStarted target trial extra =>
    [("target", toString target), ("trial", toString trial), ("extra", toString extra)]
  | .trialComplete target trial succeeded failed =>
    [("target", toString target), ("trial", toString trial), ("succeeded", toString succeeded),
      ("failed", toString failed)]
  | .launchFinished totals =>
    [("batches", toString totals.batches), ("launched", toString totals.launched),
      ("succeeded", toString totals.succeeded), ("failed", toString totals.failed),
      ("spawn_failed", toString totals.startFailed), ("timed_out", toString totals.timedOut),
      ("interrupted", toString totals.interrupted)]
  | .waitFailed | .trialsSkipped | .serversInterrupted | .clientsInterrupted | .signalReceived => []

def line (e : Event) : String :=
  let field (f : String × String) : String := f.1 ++ "=" ++ f.2
  " ".intercalate ([e.level.label, e.source ++ ":", e.message] ++ e.fields.map field)

end Event

end Fleet

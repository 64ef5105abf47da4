/-
  Fleet.Launch — everything that is decided before a worker starts: which workers a server
  VM starts (`ServerLaunch`) and which a client VM starts over a whole sweep of
  message-count targets and trials (`ClientLaunch`). Building a launch checks all that can
  be wrong with it, so a launch that was built can be started.
-/

import Fleet.Worker.Invocation
import Fleet.Settings.Error

namespace Fleet

/-! ## What can be wrong -/

inductive LaunchError where
  | setting (error : SettingError)
  | placement (error : PlacementError)
  | portOutOfRange (role : Role) (port : Nat)
  deriving DecidableEq, Repr

namespace LaunchError

def message : LaunchError → String
  | .setting error => "configuration error: " ++ error.message
  | .placement error => "placement error: " ++ error.message
  | .portOutOfRange role port => s!"{role.label} port {port} is outside the valid port range"

def chain (e : LaunchError) : List String :=
  e.message :: match e with
    | .setting error => error.chain
    | .placement error => [error.message]
    | .portOutOfRange .. => []

end LaunchError

def maxPort : Nat := 65535

def checkPort (role : Role) (port : Nat) : Except LaunchError Unit :=
  if maxPort < port then .error (.portOutOfRange role port) else .ok ()

/-! ## A VM's slice -/

def sliceFor (t : Topology) (vmId : UInt32) : Logged LaunchError ServerSlice := do
  let s ← Logged.ofExcept ((t.slice vmId).mapError .placement)
  Logged.note (.sliceComputed vmId s.firstId s.count)
  return s

/-- The port of the last server of a slice, which no other of its ports exceeds. -/
def lastServerPort (base : UInt16) (s : ServerSlice) : Nat := workerPort base (s.ids.stop - 1)

/-! ## Servers -/

structure ServerLaunch where
  topology : Topology
  vmId : UInt32
  slice : ServerSlice
  params : ServerParams
  deriving DecidableEq, Repr

namespace ServerLaunch

def build (topology : Topology) (vmId : UInt32) (params : ServerParams) : Logged LaunchError ServerLaunch := do
  let slice ← sliceFor topology vmId
  Logged.ofExcept (checkPort .server (lastServerPort params.basePort slice))
  Logged.note (.serversPlaced vmId slice.firstId slice.count topology.clientsPerServer)
  return { topology, vmId, slice, params }

variable (l : ServerLaunch)

def invocations : List ServerInvocation := l.slice.ids.toList.map (.of l.topology l.params)

/-- One command for each server id of the slice, in slots from 0. -/
def commands : List Command :=
  l.invocations.zipIdx.map fun (i, slot) => i.toCommand (UInt32.ofNat slot) l.params.program

end ServerLaunch

/-! ## Clients -/

structure ExperimentRun where
  target : UInt32
  trial : UInt32
  deriving DecidableEq, Repr

structure ClientLaunch where
  topology : Topology
  vmId : UInt32
  slice : ServerSlice
  targets : List UInt32
  trials : UInt32
  params : ClientParams
  deriving DecidableEq, Repr

namespace ClientLaunch

def checkSweep (params : ClientParams) (targets : List UInt32) (trials : UInt32) : Except SettingError Unit :=
  if targets = [] then .error .noTargets
  else if trials = 0 then .error .zeroTrials
  else match params.opt with
    | some o => if params.rate ≤ 1 then .error (.optimizationNeedsRate o params.rate) else .ok ()
    | none => .ok ()

def build (topology : Topology) (vmId : UInt32) (params : ClientParams) (targets : List UInt32) (trials : UInt32) :
    Logged LaunchError ClientLaunch := do
  Logged.ofExcept ((checkSweep params targets trials).mapError .setting)
  let slice ← sliceFor topology vmId
  Logged.ofExcept (checkPort .client (topology.clientsPerVm - 1).toNat)
  Logged.ofExcept (checkPort .server (lastServerPort params.basePort slice))
  Logged.note (.clientsPlaced vmId topology.clientsPerVm slice.firstId slice.count targets.length trials)
  return { topology, vmId, slice, targets, trials, params }

variable (l : ClientLaunch)

def slots : List ClientSlot := l.topology.assignClients l.slice

def runsFor (target : UInt32) : List ExperimentRun :=
  (List.range l.trials.toNat).map fun trial => ⟨target, UInt32.ofNat trial⟩

/-- Every point of the sweep in launch order: targets as given, trials inside. -/
def runs : List ExperimentRun := l.targets.flatMap l.runsFor

def runCount : Nat := l.targets.length * l.trials.toNat

/-- The point of the sweep with number `k`, counted from 0 in launch order. -/
def runAt? (k : Nat) : Option ExperimentRun :=
  l.targets[k / l.trials.toNat]?.map fun target => ⟨target, UInt32.ofNat (k % l.trials.toNat)⟩

def extraFor (target : UInt32) : Int := l.topology.extra target

def invocationsFor (target : UInt32) : List ClientInvocation :=
  l.topology.clientSlots.map (.of l.topology l.slice l.params target)

/-- One command for each client slot, in slot order. -/
def commandsFor (target : UInt32) : List Command :=
  (l.invocationsFor target).map (·.toCommand l.params.program)

end ClientLaunch

end Fleet

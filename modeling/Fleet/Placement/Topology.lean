/-
  Fleet.Placement.Topology — how many servers and clients an experiment has and over how
  many VMs each role is spread, with the ratios that follow.

  Every ratio is a floor division, so an uneven split leaves a tail of ids that no VM
  owns: under `Partition.truncate` the tail is reported (`Topology.warnings`), under
  `Partition.strict` it is refused. A `Topology` carries what makes the ratios sound: each
  role has at least one VM and at least one worker for each of its VMs.
-/

import Fleet.Logged

namespace Fleet

/-! ## What can be wrong -/

inductive CountName where
  | totalServers
  | totalClients
  | serverVms
  | clientVms
  deriving DecidableEq, Repr

def CountName.label : CountName → String
  | .totalServers => "total servers"
  | .totalClients => "total clients"
  | .serverVms => "server VMs"
  | .clientVms => "client VMs"

inductive PlacementError where
  | zeroCount (count : CountName)
  /-- Fewer workers of a role than VMs to spread them over. -/
  | emptySlice (role : Role) (total vms : UInt32)
  | vmOutOfRange (vmId serverVms : UInt32)
  | unevenSplit (role : Role) (total vms dropped : UInt32)
  deriving DecidableEq, Repr

def PlacementError.message : PlacementError → String
  | .zeroCount count => s!"{count.label} must be at least 1"
  | .emptySlice role total vms =>
    s!"{vms} {role.label} VMs for {total} {role.label}s leaves every VM with zero {role.label}s"
  | .vmOutOfRange vmId serverVms => s!"vm id {vmId} out of range: only {serverVms} server VMs exist"
  | .unevenSplit role total vms dropped =>
    s!"{total} {role.label}s do not divide evenly across {vms} VMs ({dropped} would be left unassigned)"

/-! ## The topology -/

/-- What becomes of workers that an even share leaves over. -/
inductive Partition where
  | truncate
  | strict
  deriving DecidableEq, Repr

structure Topology where
  totalServers : UInt32
  totalClients : UInt32
  serverVms : UInt32
  clientVms : UInt32
  serverVms_pos : 0 < serverVms.toNat
  serverVms_le : serverVms.toNat ≤ totalServers.toNat
  clientVms_pos : 0 < clientVms.toNat
  clientVms_le : clientVms.toNat ≤ totalClients.toNat
  deriving DecidableEq, Repr

namespace Topology

variable (t : Topology)

def clientsPerServer : UInt32 := t.totalClients / t.totalServers

def serversPerVm : UInt32 := t.totalServers / t.serverVms

def clientsPerVm : UInt32 := t.totalClients / t.clientVms

def unassignedServerIds : IdRange := ⟨t.serversPerVm * t.serverVms, t.totalServers⟩

def unassignedClients : UInt32 := t.totalClients - t.clientsPerVm * t.clientVms

/-! ## Building one -/

theorem toNat_pos {n : UInt32} (h : ¬ n = 0) : 0 < n.toNat :=
  Nat.pos_of_ne_zero fun h0 => h (UInt32.toNat_inj.mp h0)

theorem le_of_div_ne_zero {n d : UInt32} (h : ¬ n / d = 0) : d.toNat ≤ n.toNat :=
  Nat.le_of_not_lt fun hlt => h (UInt32.toNat_inj.mp (by simp [UInt32.toNat_div, Nat.div_eq_of_lt hlt]))

/-- The faults of four counts, in the order in which they are looked for: a zero count,
    a role with fewer workers than VMs, and (strict only) a split that leaves workers over. -/
def check (mode : Partition) (totalServers totalClients serverVms clientVms : UInt32) :
    Except PlacementError Topology :=
  if totalServers = 0 then .error (.zeroCount .totalServers)
  else if totalClients = 0 then .error (.zeroCount .totalClients)
  else if hs : serverVms = 0 then .error (.zeroCount .serverVms)
  else if hc : clientVms = 0 then .error (.zeroCount .clientVms)
  else if hsv : totalServers / serverVms = 0 then .error (.emptySlice .server totalServers serverVms)
  else if hcv : totalClients / clientVms = 0 then .error (.emptySlice .client totalClients clientVms)
  else if mode = .strict ∧ totalServers % serverVms ≠ 0 then
    .error (.unevenSplit .server totalServers serverVms (totalServers % serverVms))
  else if mode = .strict ∧ totalClients % clientVms ≠ 0 then
    .error (.unevenSplit .client totalClients clientVms (totalClients % clientVms))
  else .ok {
    totalServers, totalClients, serverVms, clientVms
    serverVms_pos := toNat_pos hs
    serverVms_le := le_of_div_ne_zero hsv
    clientVms_pos := toNat_pos hc
    clientVms_le := le_of_div_ne_zero hcv }

/-- What a topology has to be warned about: the leftovers of both roles, then servers
    that outnumber the clients. -/
def warnings : List Event :=
  (if t.totalServers % t.serverVms = 0 then []
    else [.unevenServers t.totalServers t.serverVms t.unassignedServerIds]) ++
  (if t.totalClients % t.clientVms = 0 then []
    else [.unevenClients t.totalClients t.clientVms t.unassignedClients]) ++
  (if t.clientsPerServer = 0 then [.fewClients t.totalServers t.totalClients] else [])

def build (mode : Partition) (totalServers totalClients serverVms clientVms : UInt32) :
    Logged PlacementError Topology :=
  match check mode totalServers totalClients serverVms clientVms with
  | .ok t => ⟨.ok t, t.warnings⟩
  | .error e => .fail e

end Topology

end Fleet

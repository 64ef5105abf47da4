/-
  Fleet.Placement.Slice — what one VM handles: the block of server ids it owns
  (`ServerSlice`), the server each of its client slots talks to (`clientTarget`, in turn
  over the slice) and the synthetic messages each server must add to reach a message-count
  target (`Topology.extra`).
-/

import Fleet.Placement.Topology

namespace Fleet

structure ServerSlice where
  firstId : UInt32
  count : UInt32
  deriving DecidableEq, Repr

namespace ServerSlice

variable (s : ServerSlice)

def ids : IdRange := ⟨s.firstId, s.firstId + s.count⟩

def contains (id : UInt32) : Bool := s.ids.contains id

/-- The server that a VM's client slot talks to: the slots go round the slice. -/
def clientTarget (slot : UInt32) : UInt32 := s.firstId + slot % s.count

end ServerSlice

structure ClientSlot where
  slot : UInt32
  targetServer : UInt32
  deriving DecidableEq, Repr

namespace Topology

variable (t : Topology)

def slice (vmId : UInt32) : Except PlacementError ServerSlice :=
  if t.serverVms ≤ vmId then .error (.vmOutOfRange vmId t.serverVms)
  else .ok ⟨vmId * t.serversPerVm, t.serversPerVm⟩

def clientSlots : List UInt32 := (List.range t.clientsPerVm.toNat).map UInt32.ofNat

def assignClients (s : ServerSlice) : List ClientSlot :=
  t.clientSlots.map fun slot => ⟨slot, s.clientTarget slot⟩

/-- The messages that each server has to add so that `target` are in flight: what the
    clients leave missing, shared between the servers and rounded down (so it is negative
    when the clients alone send more). -/
def extra (target : UInt32) : Int :=
  Int.fdiv ((target.toNat : Int) - t.totalClients.toNat) t.totalServers.toNat

end Topology

end Fleet

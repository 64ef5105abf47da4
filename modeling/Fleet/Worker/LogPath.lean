/-
  Fleet.Worker.LogPath — the log files of an experiment. Clients of one message-count
  target share one file over all slots and trials; every server has its own. A name
  spells out all that tells two experiments apart, so equal names mean equal settings.
-/

import Fleet.Placement.Topology
import Fleet.Worker.Path

namespace Fleet.LogPath

/-- `<head>_<S>s_<C>c_<V>vm_<rate>k[_<opt>].log` -/
def name (head : String) (t : Topology) (vms rate : UInt32) (opt : Option Optimization) : String :=
  s!"{head}_{t.totalServers}s_{t.totalClients}c_{vms}vm_{rate}k" ++
    (match opt with | some o => "_" ++ o.flag | none => "") ++ ".log"

def client (out : String) (target : UInt32) (t : Topology) (rate : UInt32) (opt : Option Optimization) : String :=
  Path.join out (name (toString target) t t.clientVms rate opt)

def server (out : String) (serverId : UInt32) (t : Topology) (rate : UInt32) (opt : Option Optimization) : String :=
  Path.join out (name s!"server{serverId}" t t.serverVms rate opt)

end Fleet.LogPath

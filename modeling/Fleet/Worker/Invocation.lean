/-
  Fleet.Worker.Invocation — what one server or client worker is told, as a record, and
  the argument list that tells it (`ServerInvocation.toCommand`,
  `ClientInvocation.toCommand`).

  An argument list is a list of flags, each with its value behind it. A server is told the
  base port and its id and derives its own port; a client is told the finished address.
-/

import Fleet.Placement.Slice
import Fleet.Text.OsText
import Fleet.Worker.Command
import Fleet.Worker.LogPath

namespace Fleet

/-- The port of the worker `offset` places above `base`. Nothing bounds it: whoever starts
    a worker checks it. -/
def workerPort (base : UInt16) (offset : UInt32) : Nat := base.toNat + offset.toNat

def flatArgs (pairs : List (String × String)) : List String := pairs.flatMap fun p => [p.1, p.2]

def optPairs (opt : Option Optimization) : List (String × String) :=
  match opt with
  | some o => [("-o", o.flag)]
  | none => []

/-! ## Servers -/

structure ServerParams where
  program : String
  ip : String
  /-- The port of server 0; server `n` listens `n` above it. -/
  basePort : UInt16
  depth : UInt32
  ret : Retrieval
  opt : Option Optimization
  rate : UInt32
  hostFile : OsText
  /-- The directory of the servers' logs; without one they share the launcher's output. -/
  out : Option OsText
  deriving DecidableEq, Repr

structure ServerInvocation where
  serverId : UInt32
  bindIp : String
  basePort : UInt16
  bindPort : Nat
  capacity : UInt32
  totalServers : UInt32
  depth : UInt32
  ret : Retrieval
  opt : Option Optimization
  rate : UInt32
  hostFile : String
  output : Output
  deriving DecidableEq, Repr

namespace ServerInvocation

def of (t : Topology) (params : ServerParams) (serverId : UInt32) : ServerInvocation where
  serverId
  bindIp := params.ip
  basePort := params.basePort
  bindPort := workerPort params.basePort serverId
  capacity := t.clientsPerServer
  totalServers := t.totalServers
  depth := params.depth
  ret := params.ret
  opt := params.opt
  rate := params.rate
  hostFile := params.hostFile.shown
  output := match params.out with
    | some dir => .append (LogPath.server dir.shown serverId t params.rate params.opt)
    | none => .inherit

def pairs (i : ServerInvocation) : List (String × String) :=
  [("-i", i.bindIp), ("-s", toString i.basePort), ("-d", toString i.depth), ("-t", i.ret.flag),
    ("-m", toString i.capacity), ("-h", i.hostFile), ("-n", toString i.totalServers),
    ("-p", toString i.serverId), ("-k", toString i.rate)] ++ optPairs i.opt

def toCommand (i : ServerInvocation) (slot : UInt32) (program : String) : Command where
  role := .server
  slot
  program
  args := flatArgs i.pairs
  output := i.output

end ServerInvocation

/-! ## Clients -/

structure ClientParams where
  program : String
  serverIp : String
  basePort : UInt16
  depth : UInt32
  ret : Retrieval
  opt : Option Optimization
  rate : UInt32
  rounds : UInt32
  out : String
  /-- The payload marker that every client shares. -/
  secret : String
  deriving DecidableEq, Repr

structure ClientInvocation where
  clientId : UInt32
  localPort : UInt32
  targetServer : UInt32
  serverAddr : String
  depth : UInt32
  rounds : UInt32
  extra : Int
  rate : UInt32
  opt : Option Optimization
  ret : Retrieval
  secret : String
  log : String
  deriving DecidableEq, Repr

namespace ClientInvocation

/-- The invocation of one client slot of a VM for one message-count target. A client's
    number is its slot and its port as well. -/
def of (t : Topology) (s : ServerSlice) (params : ClientParams) (target slot : UInt32) : ClientInvocation where
  clientId := slot
  localPort := slot
  targetServer := s.clientTarget slot
  serverAddr := s!"{params.serverIp}:{workerPort params.basePort (s.clientTarget slot)}"
  depth := params.depth
  rounds := params.rounds
  extra := t.extra target
  rate := params.rate
  opt := params.opt
  ret := params.ret
  secret := params.secret
  log := LogPath.client params.out target t params.rate params.opt

def pairs (i : ClientInvocation) : List (String × String) :=
  [("-n", toString i.clientId), ("-p", toString i.localPort), ("-x", i.secret), ("-h", i.serverAddr),
    ("-d", toString i.depth), ("-r", toString i.rounds), ("-b", toString i.extra),
    ("-k", toString i.rate)] ++ optPairs i.opt ++ [("-t", i.ret.flag)]

def toCommand (i : ClientInvocation) (program : String) : Command where
  role := .client
  slot := i.clientId
  program
  args := flatArgs i.pairs
  output := .append i.log

end ClientInvocation

end Fleet

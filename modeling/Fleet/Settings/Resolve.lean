/-
  Fleet.Settings.Resolve — from flags and a settings file to a launch. Every setting comes
  from its flag if that is given, else from the file, else from a default; only strictness
  is asked for by either.
-/

import Fleet.CommandLine.Flags
import Fleet.Settings.File
import Fleet.Launch
import Fleet.Run.Clock

namespace Fleet

/-! ## Defaults -/

namespace Default

def serverBin : String := "./target/release/server"
def clientBin : String := "./target/release/client"
def hostFile : OsText := "scripts/hosts.txt"
def port : UInt16 := 8000
def depth : UInt32 := 2
def rounds : UInt32 := 10
def target : UInt32 := 131072
def clientOut : String := "."
def serverIp : String := "127.0.0.1"
/-- This machine's own address, if its name stands for none. -/
def localIp : String := "127.0.0.1"
def secret : String := "hahahahe"
def settleSecs : UInt64 := 1

end Default

/-! ## Topology and experiment -/

def TopologyFlags.resolve (f : TopologyFlags) (file : FileSettings) : Logged LaunchError (Topology × UInt32) := do
  let mode := if f.strict || file.launch.strict.getD false then Partition.strict else .truncate
  let section' := file.topology
  let topology ← (Topology.build mode
    ((f.totalServers <|> section'.totalServers).getD 1) ((f.totalClients <|> section'.totalClients).getD 1)
    ((f.serverVms <|> section'.serverVms).getD 1) ((f.clientVms <|> section'.clientVms).getD 1)).mapError .placement
  return (topology, (f.vmId <|> section'.vmId).getD 0)

structure Experiment where
  rate : UInt32
  opt : Option Optimization
  ret : Retrieval
  depth : UInt32
  port : UInt16
  deriving DecidableEq, Repr

def ExperimentFlags.resolve (f : ExperimentFlags) (file : FileSettings) : Except LaunchError Experiment :=
  let section' := file.retrieval
  let rate := (f.rate <|> section'.rate).getD 1
  if rate = 0 then .error (.setting .zeroRate)
  else .ok {
    rate
    opt := f.opt <|> section'.opt
    ret := (f.ret <|> section'.ret).getD default
    depth := (f.depth <|> section'.depth).getD Default.depth
    port := (f.port <|> section'.port).getD Default.port }

/-! ## Launches -/

def ServerFlags.program (f : ServerFlags) (file : FileSettings) : String :=
  (f.serverBin <|> file.binaries.server).getD Default.serverBin

def ClientFlags.program (f : ClientFlags) (file : FileSettings) : String :=
  (f.clientBin <|> file.binaries.client).getD Default.clientBin

/-- What the servers of a VM are told. `localIp` is this machine's own address, which they
    listen on unless told otherwise. -/
def ServerFlags.params (f : ServerFlags) (file : FileSettings) (localIp : String) (e : Experiment) : ServerParams where
  program := f.program file
  ip := (f.ip <|> file.server.ip).getD localIp
  basePort := e.port
  depth := e.depth
  ret := e.ret
  opt := e.opt
  rate := e.rate
  hostFile := (f.hostFile <|> file.server.hostFile).getD Default.hostFile
  out := f.out <|> file.server.out

def ServerFlags.launch (f : ServerFlags) (file : FileSettings) (localIp : String) :
    Logged LaunchError ServerLaunch := do
  let (topology, vmId) ← f.topology.resolve file
  let experiment ← Logged.ofExcept (f.experiment.resolve file)
  ServerLaunch.build topology vmId (f.params file localIp experiment)

def ClientFlags.params (f : ClientFlags) (file : FileSettings) (e : Experiment) : ClientParams where
  program := f.program file
  serverIp := (f.ip <|> file.client.ip).getD Default.serverIp
  basePort := e.port
  depth := e.depth
  ret := e.ret
  opt := e.opt
  rate := e.rate
  rounds := (f.rounds <|> file.client.rounds).getD Default.rounds
  out := (f.out <|> file.client.out).getD Default.clientOut
  secret := (f.secret <|> file.client.secret).getD Default.secret

def ClientFlags.targets (f : ClientFlags) (file : FileSettings) : List UInt32 :=
  if f.num = [] then file.client.num.getD [Default.target] else f.num

def ClientFlags.launch (f : ClientFlags) (file : FileSettings) : Logged LaunchError ClientLaunch := do
  let (topology, vmId) ← f.topology.resolve file
  let experiment ← Logged.ofExcept (f.experiment.resolve file)
  ClientLaunch.build topology vmId (f.params file experiment) (f.targets file)
    ((f.trial <|> file.client.trial).getD 1)

/-! ## Pacing -/

def RunFlags.pacing (f : RunFlags) (file : FileSettings) : Pacing where
  settle := ((f.settle <|> file.launch.settleSecs).getD Default.settleSecs).toNat * 1000
  timeout := (f.workerTimeout <|> file.launch.workerTimeoutSecs).map fun secs => secs.toNat * 1000

end Fleet

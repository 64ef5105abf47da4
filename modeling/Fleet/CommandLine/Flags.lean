/-
  Fleet.CommandLine.Flags — the flags of the launcher's commands: one record for each
  group of flags, and the table that spells them.
-/

import Fleet.CommandLine.Option

namespace Fleet

/-! ## Records -/

structure TopologyFlags where
  totalServers : Option UInt32 := none
  totalClients : Option UInt32 := none
  serverVms : Option UInt32 := none
  clientVms : Option UInt32 := none
  vmId : Option UInt32 := none
  strict : Bool := false
  deriving DecidableEq, Repr, Inhabited

structure ExperimentFlags where
  rate : Option UInt32 := none
  opt : Option Optimization := none
  ret : Option Retrieval := none
  depth : Option UInt32 := none
  port : Option UInt16 := none
  deriving DecidableEq, Repr, Inhabited

structure ServerFlags where
  topology : TopologyFlags := {}
  experiment : ExperimentFlags := {}
  ip : Option String := none
  hostFile : Option OsText := none
  out : Option OsText := none
  serverBin : Option String := none
  deriving DecidableEq, Repr, Inhabited

structure ClientFlags where
  topology : TopologyFlags := {}
  experiment : ExperimentFlags := {}
  num : List UInt32 := []
  trial : Option UInt32 := none
  rounds : Option UInt32 := none
  ip : Option String := none
  out : Option String := none
  secret : Option String := none
  clientBin : Option String := none
  deriving DecidableEq, Repr, Inhabited

/-- How batches are run, as opposed to what they hold. Times are in seconds. -/
structure RunFlags where
  dryRun : Bool := false
  workerTimeout : Option UInt64 := none
  settle : Option UInt64 := none
  deriving DecidableEq, Repr, Inhabited

/-! ## Tables -/

open CommandLine

def TopologyFlags.table : List (Flag TopologyFlags) :=
  [.single "total-servers" 's' "TOTAL_SERVERS" readU32 fun v s => { s with totalServers := some v },
    .single "total-clients" 'c' "TOTAL_CLIENTS" readU32 fun v s => { s with totalClients := some v },
    .single "svm" none "SERVER_VMS" readU32 fun v s => { s with serverVms := some v },
    .single "cvm" none "CLIENT_VMS" readU32 fun v s => { s with clientVms := some v },
    .single "vm-id" 'i' "VM_ID" readU32 fun v s => { s with vmId := some v },
    .switch "strict" fun s => { s with strict := true }]

def ExperimentFlags.table : List (Flag ExperimentFlags) :=
  [.single "rate" 'k' "RATE" readU32 fun v s => { s with rate := some v },
    .single "opt" 'o' "OPT" readOptimization fun v s => { s with opt := some v },
    .single "type" 't' "RET" readRetrieval fun v s => { s with ret := some v },
    .single "depth" 'd' "DEPTH" readU32 fun v s => { s with depth := some v },
    .single "port" 'p' "PORT" readU16 fun v s => { s with port := some v }]

def ServerFlags.table : List (Flag ServerFlags) :=
  TopologyFlags.table.map (.within fun f s => { s with topology := f s.topology }) ++
  ExperimentFlags.table.map (.within fun f s => { s with experiment := f s.experiment }) ++
  [.single "ip" none "IP" readText fun v s => { s with ip := some v },
    .single "host-file" 'f' "HOST_FILE" readPath fun v s => { s with hostFile := some v },
    .single "out" none "OUT" readPath fun v s => { s with out := some v },
    .single "server-bin" none "SERVER_BIN" readShownPath fun v s => { s with serverBin := some v }]

def ClientFlags.table : List (Flag ClientFlags) :=
  TopologyFlags.table.map (.within fun f s => { s with topology := f s.topology }) ++
  ExperimentFlags.table.map (.within fun f s => { s with experiment := f s.experiment }) ++
  [.repeated "num" 'n' "NUM" readU32 fun v s => { s with num := s.num ++ [v] },
    .single "trial" none "TRIAL" readU32 fun v s => { s with trial := some v },
    .single "rounds" 'r' "ROUNDS" readU32 fun v s => { s with rounds := some v },
    .single "ip" none "IP" readText fun v s => { s with ip := some v },
    .single "out" none "OUT" readShownPath fun v s => { s with out := some v },
    .single "secret" none "SECRET" readText fun v s => { s with secret := some v },
    .single "client-bin" none "CLIENT_BIN" readShownPath fun v s => { s with clientBin := some v }]

def RunFlags.table : List (Flag RunFlags) :=
  [.switch "dry-run" fun s => { s with dryRun := true },
    .single "worker-timeout" none "WORKER_TIMEOUT" readU64 fun v s => { s with workerTimeout := some v },
    .single "settle" none "SETTLE" readU64 fun v s => { s with settle := some v }]

namespace CommandLine

variable {σ τ : Type}

def paired (first : List (Flag σ)) (second : List (Flag τ)) : List (Flag (σ × τ)) :=
  first.map (.within fun f s => (f s.1, s.2)) ++ second.map (.within fun f s => (s.1, f s.2))

def readServerFlags (words : List OsText) : Except Stop (ServerFlags × RunFlags) :=
  Grammar.read ⟨["servers"], paired ServerFlags.table RunFlags.table, []⟩ ({}, {}) words

def readClientFlags (words : List OsText) : Except Stop (ClientFlags × RunFlags) :=
  Grammar.read ⟨["clients"], paired ClientFlags.table RunFlags.table, []⟩ ({}, {}) words

end CommandLine

end Fleet

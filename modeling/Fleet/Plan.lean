/-
  Fleet.Plan — a launch shown without being started: in lines for people (`planLines`) and as a
  structured value for programs (`planJson`), from the same slice, leftovers and commands.
-/

import Fleet.Launch
import Fleet.Json

namespace Fleet

inductive PlanFormat where
  | text
  | json
  deriving DecidableEq, Repr

namespace PlanFormat

def all : List PlanFormat := [.text, .json]

def label : PlanFormat → String
  | .text => "text"
  | .json => "json"

def ofLabel? (word : String) : Option PlanFormat := all.find? (·.label == word)

end PlanFormat

/-! ## Text -/

/-- Lines of text, each with its end. -/
def unlines (lines : List String) : String := String.join (lines.map (· ++ "\n"))

/-- A line about the ids that no VM owns, if there are any. -/
def Topology.unassignedLines (t : Topology) : List String :=
  if t.unassignedServerIds.isEmpty ∧ t.unassignedClients = 0 then []
  else [s!"unassigned: servers {t.unassignedServerIds.text}, {t.unassignedClients} client(s)"]

def commandLine (c : Command) : String := "  " ++ c.line

def ServerLaunch.planLines (l : ServerLaunch) : List String :=
  (s!"server VM {l.vmId}: servers {l.slice.ids.text} of {l.topology.totalServers}, " ++
      s!"{l.topology.clientsPerServer} clients each") ::
    (l.topology.unassignedLines ++ l.commands.map commandLine)

def ClientLaunch.targetLines (l : ClientLaunch) (target : UInt32) : List String :=
  s!"target {target} (extra {l.extraFor target} per server)" :: (l.commandsFor target).map commandLine

def ClientLaunch.planLines (l : ClientLaunch) : List String :=
  s!"client VM: {l.slots.length} clients over servers {l.slice.ids.text}, {l.trials} trial(s) per target" ::
    (l.topology.unassignedLines ++ l.targets.flatMap l.targetLines)

/-! ## Structured values -/

def Json.word (n : UInt32) : Json := .number n.toNat

def Json.option {α : Type} (f : α → Json) : Option α → Json
  | some a => f a
  | none => .null

def Topology.json (t : Topology) : Json :=
  .record [("total_servers", .word t.totalServers), ("total_clients", .word t.totalClients),
    ("server_vms", .word t.serverVms), ("client_vms", .word t.clientVms)]

def ServerSlice.json (s : ServerSlice) : Json :=
  .record [("init_server_id", .word s.firstId), ("servers_per_vm", .word s.count)]

def IdRange.json (r : IdRange) : Json := .record [("start", .word r.first), ("end", .word r.stop)]

def ClientSlot.json (s : ClientSlot) : Json :=
  .record [("slot", .word s.slot), ("target_server", .word s.targetServer)]

def Output.json : Output → Json
  | .inherit => .text "inherit"
  | .append path => .record [("append", .text path)]

def ServerInvocation.json (i : ServerInvocation) : Json :=
  .record [("server_id", .word i.serverId), ("bind_ip", .text i.bindIp), ("base_port", .number i.basePort.toNat),
    ("bind_port", .number i.bindPort), ("capacity", .word i.capacity), ("total_servers", .word i.totalServers),
    ("depth", .word i.depth), ("ret", .text i.ret.flag), ("opt", .option (fun o => .text o.flag) i.opt),
    ("rate", .word i.rate), ("host_file", .text i.hostFile), ("output", i.output.json)]

def Topology.unassignedJson (t : Topology) : Json :=
  .record [("server_ids", t.unassignedServerIds.json), ("clients", .word t.unassignedClients)]

def commandsJson (commands : List Command) : Json := .list (commands.map fun c => .text c.line)

def ServerLaunch.planJson (l : ServerLaunch) : Json :=
  .record [("topology", l.topology.json), ("vm_id", .word l.vmId), ("slice", l.slice.json),
    ("invocations", .list (l.invocations.map ServerInvocation.json)), ("unassigned", l.topology.unassignedJson),
    ("commands", commandsJson l.commands)]

def ClientLaunch.targetJson (l : ClientLaunch) (target : UInt32) : Json :=
  .record [("target", .word target), ("extra", .number (l.extraFor target)),
    ("commands", commandsJson (l.commandsFor target))]

def ClientLaunch.planJson (l : ClientLaunch) : Json :=
  .record [("topology", l.topology.json), ("vm_id", .word l.vmId), ("slice", l.slice.json),
    ("slots", .list (l.slots.map ClientSlot.json)), ("targets", .list (l.targets.map .word)),
    ("trials", .word l.trials), ("unassigned", l.topology.unassignedJson),
    ("sweep", .list (l.targets.map l.targetJson))]

/-! ## Plans -/

/-- Why a plan of a launch that was built cannot be written. -/
inductive PlanError where
  | pathNotText
  deriving DecidableEq, Repr

def PlanError.message : PlanError → String
  | .pathNotText => "path contains invalid UTF-8 characters"

/-- The paths that each server's record in a structured plan holds. -/
def ServerParams.paths (params : ServerParams) : List OsText := params.hostFile :: params.out.toList

/-- A structured plan is a text, so the paths in it have to be texts. -/
def ServerLaunch.checkPaths (l : ServerLaunch) : Except PlanError Unit :=
  if l.invocations = [] ∨ l.params.paths.all OsText.isText then .ok () else .error .pathNotText

def ServerLaunch.plan (l : ServerLaunch) : PlanFormat → Except PlanError String
  | .text => .ok (unlines l.planLines)
  | .json => l.checkPaths.map fun _ => l.planJson.pretty ++ "\n"

def ClientLaunch.plan (l : ClientLaunch) : PlanFormat → String
  | .text => unlines l.planLines
  | .json => l.planJson.pretty ++ "\n"

end Fleet

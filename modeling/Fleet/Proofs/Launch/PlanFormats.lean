/-
  Fleet.Proofs.Launch.PlanFormats — the two formats of a plan report the same.

  A structured plan is read back as text (`Json.read?`) and then taken for what it shows
  (`ServerView.ofJson?`, `ClientView.ofJson?`): the topology, the VM and its slice, the ids that
  nobody owns, and the commands, which a client plan has for each entry of its sweep. From what is
  shown, and from nothing else, the plan in lines can be written (`ServerView.text`,
  `ClientView.text`).

  `plan_formats_agree`: reading the structured plan of any launch gives a record without a repeated
  name that shows what the launch has, and the text of what it shows is the plan in lines.
-/

import Fleet.Proofs.Json.Reading
import Fleet.Proofs.Launch.PlanReading

namespace Fleet

/-! ## Records without repeated names -/

namespace Json

/-- No record in a value names a field twice. -/
inductive Keyed : Json → Prop
  | number (n : Int) : Keyed (.number n)
  | text (t : String) : Keyed (.text t)
  | null : Keyed .null
  | list (items : List Json) : (∀ j ∈ items, Keyed j) → Keyed (.list items)
  | record (fields : List (String × Json)) : (fields.map (·.1)).Nodup → (∀ f ∈ fields, Keyed f.2) →
      Keyed (.record fields)

attribute [simp] Keyed.number Keyed.text Keyed.null

@[simp] theorem keyed_word (n : UInt32) : Keyed (word n) := .number _

@[simp] theorem keyed_list_iff {items : List Json} : Keyed (.list items) ↔ ∀ j ∈ items, Keyed j :=
  ⟨fun | .list _ h => h, .list items⟩

@[simp] theorem keyed_record_iff {fields : List (String × Json)} :
    Keyed (.record fields) ↔ (fields.map (·.1)).Nodup ∧ ∀ f ∈ fields, Keyed f.2 :=
  ⟨fun | .record _ nodup h => ⟨nodup, h⟩, fun h => .record fields h.1 h.2⟩

/-! ## What a value shows -/

def word? (j : Json) : Option UInt32 := do
  let n ← j.number?
  if 0 ≤ n ∧ n.toNat < UInt32.size then some (.ofNat n.toNat) else none

@[simp] theorem word?_word (n : UInt32) : word? (word n) = some n := by
  have fits : (0 : Int) ≤ n.toNat ∧ (n.toNat : Int).toNat < UInt32.size := ⟨Int.natCast_nonneg _, n.toNat_lt⟩
  show (if _ then _ else _) = _
  rw [if_pos fits]
  simp

end Json

open Json (word word?)

def Topology.ofJson? (j : Json) : Option Topology := do
  let totalServers ← (← j.field? "total_servers").word?
  let totalClients ← (← j.field? "total_clients").word?
  let serverVms ← (← j.field? "server_vms").word?
  let clientVms ← (← j.field? "client_vms").word?
  if h : (0 < serverVms.toNat ∧ serverVms.toNat ≤ totalServers.toNat) ∧
      0 < clientVms.toNat ∧ clientVms.toNat ≤ totalClients.toNat then
    some ⟨totalServers, totalClients, serverVms, clientVms, h.1.1, h.1.2, h.2.1, h.2.2⟩
  else none

def ServerSlice.ofJson? (j : Json) : Option ServerSlice := do
  return ⟨← (← j.field? "init_server_id").word?, ← (← j.field? "servers_per_vm").word?⟩

def ClientSlot.ofJson? (j : Json) : Option ClientSlot := do
  return ⟨← (← j.field? "slot").word?, ← (← j.field? "target_server").word?⟩

/-- The ids that no VM owns: those of servers, and a number of clients. -/
structure Leftover where
  serverIds : IdRange
  clients : UInt32
  deriving DecidableEq, Repr

def Leftover.ofJson? (j : Json) : Option Leftover := do
  let ids ← j.field? "server_ids"
  return ⟨⟨← (← ids.field? "start").word?, ← (← ids.field? "end").word?⟩, ← (← j.field? "clients").word?⟩

structure Placed where
  topology : Topology
  vmId : UInt32
  slice : ServerSlice
  leftover : Leftover
  deriving DecidableEq, Repr

def Placed.ofJson? (j : Json) : Option Placed := do
  return ⟨← Topology.ofJson? (← j.field? "topology"), ← (← j.field? "vm_id").word?,
    ← ServerSlice.ofJson? (← j.field? "slice"), ← Leftover.ofJson? (← j.field? "unassigned")⟩

structure ServerView where
  placed : Placed
  commands : List String
  deriving DecidableEq, Repr

def ServerView.ofJson? (j : Json) : Option ServerView := do
  return ⟨← Placed.ofJson? j, ← j.commands?⟩

structure TargetView where
  target : UInt32
  extra : Int
  commands : List String
  deriving DecidableEq, Repr

def TargetView.ofJson? (j : Json) : Option TargetView := do
  return ⟨← (← j.field? "target").word?, ← (← j.field? "extra").number?, ← j.commands?⟩

structure ClientView where
  placed : Placed
  slots : List ClientSlot
  targets : List UInt32
  trials : UInt32
  sweep : List TargetView
  deriving DecidableEq, Repr

def ClientView.ofJson? (j : Json) : Option ClientView := do
  return ⟨← Placed.ofJson? j, ← (← (← j.field? "slots").items?).mapM ClientSlot.ofJson?,
    ← (← (← j.field? "targets").items?).mapM word?, ← (← j.field? "trials").word?,
    ← (← (← j.field? "sweep").items?).mapM TargetView.ofJson?⟩

/-! ## The plan in lines -/

def commandsText (commands : List String) : String := String.join (commands.map fun c => "  " ++ c ++ "\n")

def Leftover.text (o : Leftover) : String :=
  if o.serverIds.first < o.serverIds.stop ∨ 0 < o.clients then
    s!"unassigned: servers {o.serverIds.first}..{o.serverIds.stop}, {o.clients} client(s)\n"
  else ""

def ServerView.header (v : ServerView) : String :=
  let s := v.placed.slice
  let t := v.placed.topology
  s!"server VM {v.placed.vmId}: servers {s.firstId}..{s.firstId + s.count} of {t.totalServers}, " ++
    s!"{t.totalClients / t.totalServers} clients each\n"

def ServerView.text (v : ServerView) : String := v.header ++ (v.placed.leftover.text ++ commandsText v.commands)

def TargetView.text (v : TargetView) : String :=
  s!"target {v.target} (extra {v.extra} per server)\n" ++ commandsText v.commands

def ClientView.header (v : ClientView) : String :=
  let s := v.placed.slice
  s!"client VM: {v.slots.length} clients over servers {s.firstId}..{s.firstId + s.count}, " ++
    s!"{v.trials} trial(s) per target\n"

def ClientView.text (v : ClientView) : String :=
  v.header ++ (v.placed.leftover.text ++ String.join (v.sweep.map TargetView.text))

/-! ## Reading a launch -/

def Topology.leftover (t : Topology) : Leftover := ⟨t.unassignedServerIds, t.unassignedClients⟩

@[simp] theorem Topology.ofJson?_json (t : Topology) : ofJson? t.json = some t := by
  have sound : (0 < t.serverVms.toNat ∧ t.serverVms.toNat ≤ t.totalServers.toNat) ∧
      0 < t.clientVms.toNat ∧ t.clientVms.toNat ≤ t.totalClients.toNat :=
    ⟨⟨t.serverVms_pos, t.serverVms_le⟩, t.clientVms_pos, t.clientVms_le⟩
  simp [ofJson?, json, Json.field?, List.lookup_cons, sound]

@[simp] theorem ServerSlice.ofJson?_json (s : ServerSlice) : ofJson? s.json = some s := by
  simp [ofJson?, json, Json.field?, List.lookup_cons]

@[simp] theorem ClientSlot.ofJson?_json (s : ClientSlot) : ofJson? s.json = some s := by
  simp [ofJson?, json, Json.field?, List.lookup_cons]

@[simp] theorem Leftover.ofJson?_json (t : Topology) : ofJson? t.unassignedJson = some t.leftover := by
  simp [ofJson?, Topology.unassignedJson, IdRange.json, Json.field?, List.lookup_cons, Topology.leftover]

def ServerLaunch.view (l : ServerLaunch) : ServerView where
  placed := ⟨l.topology, l.vmId, l.slice, l.topology.leftover⟩
  commands := l.commands.map (·.line)

theorem ServerLaunch.view_planJson (l : ServerLaunch) : ServerView.ofJson? l.planJson = some l.view := by
  have placed : Placed.ofJson? l.planJson = some l.view.placed := by
    simp [Placed.ofJson?, planJson, Json.field?, List.lookup_cons, view]
  rw [ServerView.ofJson?, placed, l.commands?_planJson]
  rfl

def ClientLaunch.view (l : ClientLaunch) : ClientView where
  placed := ⟨l.topology, l.vmId, l.slice, l.topology.leftover⟩
  slots := l.slots
  targets := l.targets
  trials := l.trials
  sweep := l.targets.map fun target => ⟨target, l.extraFor target, (l.commandsFor target).map (·.line)⟩

theorem ClientLaunch.view_targetJson (l : ClientLaunch) (target : UInt32) : TargetView.ofJson? (l.targetJson target) =
    some ⟨target, l.extraFor target, (l.commandsFor target).map (·.line)⟩ := by
  have commands : (l.targetJson target).commands? = some ((l.commandsFor target).map (·.line)) :=
    mapM_text?_commands (l.commandsFor target)
  rw [TargetView.ofJson?, commands]
  simp [targetJson, Json.field?, List.lookup_cons, Json.number?]

theorem ClientLaunch.view_planJson (l : ClientLaunch) : ClientView.ofJson? l.planJson = some l.view := by
  have placed : Placed.ofJson? l.planJson = some l.view.placed := by
    simp [Placed.ofJson?, planJson, Json.field?, List.lookup_cons, view]
  have slots : (l.slots.map ClientSlot.json).mapM ClientSlot.ofJson? = some (l.slots.map id) :=
    mapM_map_some ClientSlot.ofJson?_json l.slots
  have targets : (l.targets.map word).mapM word? = some (l.targets.map id) := mapM_map_some Json.word?_word l.targets
  have sweep : (l.targets.map l.targetJson).mapM TargetView.ofJson? = some l.view.sweep :=
    mapM_map_some l.view_targetJson l.targets
  rw [ClientView.ofJson?, placed]
  simp [planJson, Json.field?, List.lookup_cons, Json.items?, slots, targets, sweep, view]

/-! ## No name twice -/

theorem keyed_commandsJson (commands : List Command) : (commandsJson commands).Keyed := by
  simp [commandsJson]

theorem Topology.keyed_json (t : Topology) : t.json.Keyed := by
  simp [json]

theorem Topology.keyed_unassignedJson (t : Topology) : t.unassignedJson.Keyed := by
  simp [unassignedJson, IdRange.json]

theorem ServerSlice.keyed_json (s : ServerSlice) : s.json.Keyed := by
  simp [json]

theorem ClientSlot.keyed_json (s : ClientSlot) : s.json.Keyed := by
  simp [json]

theorem ServerInvocation.keyed_json (i : ServerInvocation) : i.json.Keyed := by
  have opt : (Json.option (fun o : Optimization => .text o.flag) i.opt).Keyed := by
    cases i.opt <;> simp [Json.option]
  have output : i.output.json.Keyed := by
    cases i.output <;> simp [Output.json]
  simp [json, opt, output]

theorem ServerLaunch.keyed_planJson (l : ServerLaunch) : l.planJson.Keyed := by
  simp [planJson, Topology.keyed_json, ServerSlice.keyed_json, Topology.keyed_unassignedJson, keyed_commandsJson,
    ServerInvocation.keyed_json]

theorem ClientLaunch.keyed_planJson (l : ClientLaunch) : l.planJson.Keyed := by
  have sweep (target : UInt32) : (l.targetJson target).Keyed := by
    simp [targetJson, keyed_commandsJson]
  simp [planJson, Topology.keyed_json, ServerSlice.keyed_json, Topology.keyed_unassignedJson, ClientSlot.keyed_json,
    sweep]

/-! ## Lines -/

theorem toString_text (s : String) : toString s = s := rfl

theorem unlines_cons (line : String) (lines : List String) : unlines (line :: lines) = line ++ "\n" ++ unlines lines :=
  String.join_cons

theorem unlines_append (a b : List String) : unlines (a ++ b) = unlines a ++ unlines b := by
  rw [unlines, List.map_append, String.join_append]
  rfl

theorem unlines_commands (commands : List Command) :
    unlines (commands.map commandLine) = commandsText (commands.map (·.line)) := by
  rw [unlines, commandsText, List.map_map, List.map_map]
  rfl

/-- The line about what is left over is there if and only if something is. -/
theorem unlines_unassigned (t : Topology) : unlines t.unassignedLines = t.leftover.text := by
  have left_over : t.leftover.serverIds.first < t.leftover.serverIds.stop ∨ 0 < t.leftover.clients ↔
      ¬(t.unassignedServerIds.isEmpty ∧ t.unassignedClients = 0) := by
    rw [not_and_or, IdRange.isEmpty, decide_eq_true_eq, UInt32.not_le, ← ne_eq, UInt32.pos_iff_ne_zero]
    rfl
  unfold Topology.unassignedLines Leftover.text
  by_cases none_left : t.unassignedServerIds.isEmpty ∧ t.unassignedClients = 0
  · rw [if_pos none_left, if_neg (mt left_over.mp (not_not.mpr none_left))]
    rfl
  · rw [if_neg none_left, if_pos (left_over.mpr none_left), unlines_cons]
    apply String.toList_injective
    simp [toString_text, IdRange.text, Topology.leftover, unlines]

theorem ServerLaunch.unlines_planLines (l : ServerLaunch) : unlines l.planLines = l.view.text := by
  have header : s!"server VM {l.vmId}: servers {l.slice.ids.text} of {l.topology.totalServers}, " ++
      s!"{l.topology.clientsPerServer} clients each" ++ "\n" = l.view.header := by
    have placed : l.view.placed = ⟨l.topology, l.vmId, l.slice, l.topology.leftover⟩ := rfl
    unfold ServerView.header
    apply String.toList_injective
    simp [placed, toString_text, IdRange.text, ServerSlice.ids, Topology.clientsPerServer]
  rw [planLines, unlines_cons, unlines_append, unlines_unassigned, unlines_commands, header, ServerView.text]
  rfl

theorem ClientLaunch.unlines_targetLines (l : ClientLaunch) (target : UInt32) : unlines (l.targetLines target) =
    TargetView.text ⟨target, l.extraFor target, (l.commandsFor target).map (·.line)⟩ := by
  have heading : s!"target {target} (extra {l.extraFor target} per server)" ++ "\n" =
      s!"target {target} (extra {l.extraFor target} per server)\n" := by
    apply String.toList_injective
    simp [toString_text]
  rw [targetLines, unlines_cons, heading, unlines_commands, TargetView.text]

theorem ClientLaunch.unlines_planLines (l : ClientLaunch) : unlines l.planLines = l.view.text := by
  have header : s!"client VM: {l.slots.length} clients over servers {l.slice.ids.text}, {l.trials} trial(s) per target" ++
      "\n" = l.view.header := by
    have slice : l.view.placed.slice = l.slice := rfl
    have slots : l.view.slots = l.slots := rfl
    have trials : l.view.trials = l.trials := rfl
    unfold ClientView.header
    apply String.toList_injective
    simp [slice, slots, trials, toString_text, IdRange.text, ServerSlice.ids]
  have sweep (targets : List UInt32) : unlines (targets.flatMap l.targetLines) =
      String.join (targets.map fun target =>
        TargetView.text ⟨target, l.extraFor target, (l.commandsFor target).map (·.line)⟩) := by
    induction targets with
    | nil => rfl
    | cons target rest ih =>
      rw [List.flatMap_cons, unlines_append, ih, l.unlines_targetLines, List.map_cons, String.join_cons]
  rw [planLines, unlines_cons, unlines_append, unlines_unassigned, sweep, header, ClientView.text, view, List.map_map]
  rfl

/-! ## One report -/

theorem ServerLaunch.read?_plan (l : ServerLaunch) : (l.plan .json).map Json.read? =
    if l.invocations = [] ∨ l.params.paths.all OsText.isText then .ok (some l.planJson) else .error .pathNotText := by
  rw [plan, checkPaths]
  split
  · exact congrArg Except.ok (Json.read?_pretty l.planJson)
  · rfl

/-- Reading the structured plan of a launch gives one record that names nothing twice, and shows
    the topology, the VM and the slice of the launch with what is left over, and its commands; a
    client plan has them for every one of its targets in their order, as often as it is given. Only
    the structured plan of servers whose paths are no texts is not written. The plan in lines is the
    text of what is shown: a header with the bounds of the slice and the counts, a line about what
    is left over if and only if anything is, and the commands, each two blanks in, which a client
    plan has under a line for each entry of the sweep. -/
theorem plan_formats_agree :
    (∀ l : ServerLaunch, ∃ fields v,
      (l.plan .json).map Json.read? = (if l.invocations = [] ∨ l.params.paths.all OsText.isText
        then .ok (some (.record fields)) else .error .pathNotText) ∧ (Json.record fields).Keyed ∧
      ServerView.ofJson? (.record fields) = some v ∧ v.placed = ⟨l.topology, l.vmId, l.slice, l.topology.leftover⟩ ∧
      v.commands = l.commands.map (·.line) ∧ l.plan .text = .ok v.text) ∧
    ∀ l : ClientLaunch, ∃ fields v, Json.read? (l.plan .json) = some (.record fields) ∧ (Json.record fields).Keyed ∧
      ClientView.ofJson? (.record fields) = some v ∧ v.placed = ⟨l.topology, l.vmId, l.slice, l.topology.leftover⟩ ∧
      v.slots = l.slots ∧ v.targets = l.targets ∧ v.trials = l.trials ∧
      v.sweep = l.targets.map (fun target => ⟨target, l.extraFor target, (l.commandsFor target).map (·.line)⟩) ∧
      l.plan .text = v.text :=
  ⟨fun l => ⟨_, l.view, l.read?_plan, l.keyed_planJson, l.view_planJson, rfl, rfl, congrArg Except.ok l.unlines_planLines⟩,
    fun l => ⟨_, l.view, Json.read?_pretty l.planJson, l.keyed_planJson, l.view_planJson, rfl, rfl, rfl, rfl, rfl,
      l.unlines_planLines⟩⟩

end Fleet

/-
  Fleet.Proofs.Launch.Refusal — what a launch is refused for, and for which of several faults.

  The checks of a launch lie in different places: the counts are looked at when the topology
  is built, the rate when the experiment is, the targets and trials when the sweep is, and the
  ordinal and the ports last. Here they are one list (`ServerFlags.checks`,
  `ClientFlags.checks`), said of the values in force and in plain numbers, so that nothing in
  it can wrap.

  A piece of the building is `Guarded` by some of the checks if it fails with the first of them
  that does not hold and succeeds if all of them hold. Pieces one behind the other are guarded
  by their checks one behind the other (`Guarded.bind`), and so each piece has its own lemma
  and no proof looks into two of them.

  `refused_for_first_fault`: a launch fails exactly with the first fault in the list; and what
  is accepted has at most 65536 workers in a batch, all of whose ports exist.
-/

import Fleet.Proofs.Launch.Admission
import Fleet.Proofs.Launch.Endpoints
import Fleet.Proofs.Launch.Runs
import Fleet.Proofs.Settings.Precedence

namespace Fleet

/-! ## Checks in a row -/

/-- What must hold, and the error if it does not. -/
structure Check (ε : Type) where
  holds : Bool
  error : ε

section Guarded

variable {ε ε' α β : Type}

def Check.mapError (f : ε → ε') (c : Check ε) : Check ε' := ⟨c.holds, f c.error⟩

def firstFault? (checks : List (Check ε)) : Option ε := (checks.find? fun c => !c.holds).map (·.error)

theorem firstFault?_cons (c : Check ε) (checks : List (Check ε)) :
    firstFault? (c :: checks) = if c.holds then firstFault? checks else some c.error := by
  unfold firstFault?
  cases h : c.holds with
  | true => rw [List.find?_cons_of_neg (by simp [h])]; rfl
  | false => rw [List.find?_cons_of_pos (by simp [h])]; rfl

theorem firstFault?_append (first second : List (Check ε)) :
    firstFault? (first ++ second) = (firstFault? first).or (firstFault? second) := by
  unfold firstFault?
  rw [List.find?_append, Option.map_or]

theorem firstFault?_map (f : ε → ε') (checks : List (Check ε)) :
    firstFault? (checks.map (Check.mapError f)) = (firstFault? checks).map f := by
  induction checks with
  | nil => rfl
  | cons c rest ih =>
    rw [List.map_cons, firstFault?_cons, firstFault?_cons, ih, Check.mapError]
    split <;> rfl

theorem firstFault?_eq_none_iff {checks : List (Check ε)} :
    firstFault? checks = none ↔ ∀ c ∈ checks, c.holds = true := by
  simp [firstFault?]

/-- A result that is the first fault of some checks, or fits if all of them hold. -/
def Guarded (checks : List (Check ε)) (result : Except ε α) (Fits : α → Prop) : Prop :=
  match firstFault? checks with
  | some e => result = .error e
  | none => ∃ a, result = .ok a ∧ Fits a

namespace Guarded

variable {c : Check ε} {checks more : List (Check ε)} {result : Except ε α} {Fits : α → Prop} {Fits' : β → Prop}

theorem ok {a : α} (fits : Fits a) : Guarded ([] : List (Check ε)) (.ok a) Fits := ⟨a, rfl, fits⟩

theorem of_fault {e : ε} (fault : firstFault? checks = some e) (fails : result = .error e) :
    Guarded checks result Fits := by
  rw [Guarded, fault]
  exact fails

theorem of_none {a : α} (none : firstFault? checks = none) (accepted : result = .ok a) (fits : Fits a) :
    Guarded checks result Fits := by
  rw [Guarded, none]
  exact ⟨a, accepted, fits⟩

theorem fault_or_fits (h : Guarded checks result Fits) :
    (∃ e, firstFault? checks = some e ∧ result = .error e) ∨
      firstFault? checks = none ∧ ∃ a, result = .ok a ∧ Fits a := by
  unfold Guarded at h
  cases hf : firstFault? checks with
  | some e =>
    rw [hf] at h
    exact .inl ⟨e, rfl, h⟩
  | none =>
    rw [hf] at h
    exact .inr ⟨rfl, h⟩

theorem dite {bad : Prop} [Decidable bad] {rest : ¬bad → Except ε α} (agrees : c.holds = true ↔ ¬bad)
    (guarded : ∀ good, Guarded checks (rest good) Fits) :
    Guarded (c :: checks) (if h : bad then .error c.error else rest h) Fits := by
  by_cases h : bad
  · rw [dif_pos h]
    exact .of_fault (by rw [firstFault?_cons, if_neg (by simp [agrees, h])]) rfl
  · rw [dif_neg h, Guarded, firstFault?_cons, if_pos (agrees.mpr h)]
    exact guarded h

theorem ite {bad : Prop} [Decidable bad] (agrees : c.holds = true ↔ ¬bad)
    (guarded : ¬bad → Guarded checks result Fits) :
    Guarded (c :: checks) (if bad then .error c.error else result) Fits := by
  rw [← dite_eq_ite]
  exact dite agrees guarded

theorem mapError (f : ε → ε') (h : Guarded checks result Fits) :
    Guarded (checks.map (Check.mapError f)) (result.mapError f) Fits := by
  rcases h.fault_or_fits with ⟨e, fault, rfl⟩ | ⟨none, a, rfl, fits⟩
  · exact .of_fault (by rw [firstFault?_map, fault]; rfl) rfl
  · exact .of_none (by rw [firstFault?_map, none]; rfl) rfl fits

/-- What runs only after something else is checked only after it. -/
theorem bind {x : Logged ε α} {f : α → Logged ε β} (first : Guarded checks x.result Fits)
    (second : ∀ a, Fits a → Guarded more (f a).result Fits') : Guarded (checks ++ more) (x >>= f).result Fits' := by
  rcases first.fault_or_fits with ⟨e, fault, fails⟩ | ⟨none, a, accepted, fits⟩
  · refine .of_fault (by rw [firstFault?_append, fault]; rfl) ?_
    rw [Logged.bind_result, fails]
    rfl
  · rw [Guarded, firstFault?_append, none, Logged.bind_result, accepted]
    exact second a fits

theorem bind_ok {x : Logged ε α} {f : α → Logged ε β} (first : Guarded checks x.result Fits)
    (second : ∀ a, Fits a → ∃ b, (f a).result = .ok b ∧ Fits' b) : Guarded checks (x >>= f).result Fits' := by
  rw [← List.append_nil checks]
  exact first.bind second

variable (h : Guarded checks result Fits)
include h

theorem error_iff {e : ε} : result = .error e ↔ firstFault? checks = some e := by
  rcases h.fault_or_fits with ⟨e', fault, rfl⟩ | ⟨none, a, rfl, -⟩
  · rw [fault, Except.error.injEq, Option.some.injEq]
  · rw [none]
    exact ⟨nofun, nofun⟩

theorem ok_iff : (∃ a, result = .ok a) ↔ ∀ c ∈ checks, c.holds = true := by
  rw [← firstFault?_eq_none_iff]
  rcases h.fault_or_fits with ⟨e, fault, rfl⟩ | ⟨none, a, accepted, -⟩
  · rw [fault]
    exact ⟨nofun, nofun⟩
  · exact ⟨fun _ => none, fun _ => ⟨a, accepted⟩⟩

theorem fits {a : α} (accepted : result = .ok a) : Fits a := by
  rcases h.fault_or_fits with ⟨e, -, rfl⟩ | ⟨-, b, rfl, fits⟩
  · cases accepted
  · cases accepted
    exact fits

end Guarded

end Guarded

/-! ## The checks of a launch -/

structure Asked where
  servers : UInt32
  clients : UInt32
  serverVms : UInt32
  clientVms : UInt32
  strict : Bool
  vmId : UInt32
  rate : UInt32
  opt : Option Optimization
  port : UInt16

namespace Asked

def ofShared (v : ∀ s : SharedSetting, s.Value) : Asked where
  servers := v .totalServers
  clients := v .totalClients
  serverVms := v .serverVms
  clientVms := v .clientVms
  strict := v .strict
  vmId := v .vmId
  rate := v .rate
  opt := v .opt
  port := v .port

variable (r : Asked)

def partition : Partition := if r.strict then .strict else .truncate

def Sizes (t : Topology) : Prop :=
  t.totalServers = r.servers ∧ t.totalClients = r.clients ∧ t.serverVms = r.serverVms ∧ t.clientVms = r.clientVms

def sizeChecks : List (Check PlacementError) :=
  [⟨1 ≤ r.servers.toNat, .zeroCount .totalServers⟩,
    ⟨1 ≤ r.clients.toNat, .zeroCount .totalClients⟩,
    ⟨1 ≤ r.serverVms.toNat, .zeroCount .serverVms⟩,
    ⟨1 ≤ r.clientVms.toNat, .zeroCount .clientVms⟩,
    ⟨r.serverVms.toNat ≤ r.servers.toNat, .emptySlice .server r.servers r.serverVms⟩,
    ⟨r.clientVms.toNat ≤ r.clients.toNat, .emptySlice .client r.clients r.clientVms⟩,
    ⟨r.strict = true → r.servers.toNat % r.serverVms.toNat = 0,
      .unevenSplit .server r.servers r.serverVms (.ofNat (r.servers.toNat % r.serverVms.toNat))⟩,
    ⟨r.strict = true → r.clients.toNat % r.clientVms.toNat = 0,
      .unevenSplit .client r.clients r.clientVms (.ofNat (r.clients.toNat % r.clientVms.toNat))⟩]

def rateChecks : List (Check SettingError) := [⟨1 ≤ r.rate.toNat, .zeroRate⟩]

def sweepChecks (targets : List UInt32) (trials : UInt32) : List (Check SettingError) :=
  [⟨targets ≠ [], .noTargets⟩, ⟨1 ≤ trials.toNat, .zeroTrials⟩] ++
    match r.opt with
    | some o => [⟨1 < r.rate.toNat, .optimizationNeedsRate o r.rate⟩]
    | none => []

def ordinalChecks : List (Check PlacementError) :=
  [⟨r.vmId.toNat < r.serverVms.toNat, .vmOutOfRange r.vmId r.serverVms⟩]

/-- The number of the last client is its port. -/
def lastClientPort : Nat := r.clients.toNat / r.clientVms.toNat - 1

def lastServerPort : Nat := r.port.toNat + (r.vmId.toNat + 1) * (r.servers.toNat / r.serverVms.toNat) - 1

def portCheck (role : Role) (port : Nat) : Check LaunchError := ⟨port ≤ 65535, .portOutOfRange role port⟩

end Asked

def ServerFlags.asked (f : ServerFlags) (file : FileSettings) : Asked :=
  .ofShared (sharedInForce f.topology f.experiment file)

/-- Everything a server launch is checked for, in order. -/
def ServerFlags.checks (f : ServerFlags) (file : FileSettings) : List (Check LaunchError) :=
  let r := f.asked file
  r.sizeChecks.map (.mapError .placement) ++ (r.rateChecks.map (.mapError .setting) ++
    (r.ordinalChecks.map (.mapError .placement) ++ [Asked.portCheck .server r.lastServerPort]))

def ClientFlags.asked (f : ClientFlags) (file : FileSettings) : Asked :=
  .ofShared (sharedInForce f.topology f.experiment file)

def ClientFlags.checks (f : ClientFlags) (file : FileSettings) : List (Check LaunchError) :=
  let r := f.asked file
  let v := f.valuesInForce file
  r.sizeChecks.map (.mapError .placement) ++ (r.rateChecks.map (.mapError .setting) ++
    ((r.sweepChecks (v .num) (v .trial)).map (.mapError .setting) ++ (r.ordinalChecks.map (.mapError .placement) ++
      [Asked.portCheck .client r.lastClientPort, Asked.portCheck .server r.lastServerPort])))

/-! ## What was accepted is in range -/

/-- The workers of a batch can be numbered by ports, and all their ports exist. -/
structure ServerLaunch.InRange (l : ServerLaunch) : Prop where
  workers : l.commands.length ≤ 65536
  bound : ∀ i ∈ l.invocations, i.bindPort ≤ maxPort
  listens : ∀ c ∈ l.commands, ∃ port, c.listens? = some port ∧ port ≤ maxPort

theorem ServerLaunch.inRange {l : ServerLaunch} (slice : l.topology.slice l.vmId = .ok l.slice)
    (checked : lastServerPort l.params.basePort l.slice ≤ maxPort) : l.InRange := by
  have bound : ∀ i ∈ l.invocations, i.bindPort ≤ maxPort := by
    intro i hi
    obtain ⟨j, hj⟩ := List.getElem?_of_mem hi
    rw [getElem?_invocations] at hj
    split at hj
    · rename_i lt
      cases hj
      exact port_le_of_checked slice checked lt
    · cases hj
  refine ⟨?_, bound, fun c hc => ?_⟩
  · have hlast := l.topology.exact.lastId _ _ slice
    have length : l.commands.length = l.slice.ids.size := by simp [commands, invocations]
    unfold lastServerPort workerPort at checked
    rw [length, IdRange.size]
    unfold maxPort at checked
    omega
  · obtain ⟨j, hj⟩ := List.getElem?_of_mem hc
    rw [getElem?_commands, Option.map_eq_some_iff] at hj
    obtain ⟨i, hi, rfl⟩ := hj
    have mem := List.mem_of_getElem? hi
    obtain ⟨id, -, rfl⟩ := List.mem_map.mp mem
    exact ⟨_, ServerInvocation.listens?_toCommand _ _ _, bound _ mem⟩

/-- The workers of a batch can be numbered by ports, and all their ports and all that they
    call exist. -/
structure ClientLaunch.InRange (l : ClientLaunch) : Prop where
  workers : ∀ target, (l.commandsFor target).length ≤ 65536
  own : ∀ target, ∀ c ∈ l.commandsFor target, ∃ port, c.number? "-p" = some port ∧ port ≤ maxPort
  calls : ∀ target, ∀ c ∈ l.commandsFor target, ∃ port, c.calls? = some port ∧ port ≤ maxPort

theorem ClientLaunch.mem_commandsFor {l : ClientLaunch} {target : UInt32} {c : Command} (h : c ∈ l.commandsFor target) :
    ∃ slot ∈ l.topology.clientSlots,
      c = (ClientInvocation.of l.topology l.slice l.params target slot).toCommand l.params.program := by
  obtain ⟨i, hi, rfl⟩ := List.mem_map.mp h
  obtain ⟨slot, hslot, rfl⟩ := List.mem_map.mp hi
  exact ⟨slot, hslot, rfl⟩

theorem Topology.toNat_lt_of_mem_clientSlots {t : Topology} {slot : UInt32} (h : slot ∈ t.clientSlots) :
    slot.toNat < t.clientsPerVm.toNat := by
  obtain ⟨k, hk, rfl⟩ := List.mem_map.mp h
  rw [List.mem_range] at hk
  rwa [UInt32.toNat_ofNat_of_lt' (Nat.lt_trans hk t.clientsPerVm.toNat_lt)]

theorem ClientLaunch.inRange {l : ClientLaunch} (slice : l.topology.slice l.vmId = .ok l.slice)
    (clients : (l.topology.clientsPerVm - 1).toNat ≤ maxPort)
    (checked : lastServerPort l.params.basePort l.slice ≤ maxPort) : l.InRange := by
  have hlast := l.topology.exact.lastSlot
  unfold maxPort at clients
  refine ⟨fun target => ?_, fun target c hc => ?_, fun target c hc => ?_⟩
  · rw [length_commandsFor]
    omega
  · obtain ⟨slot, hslot, rfl⟩ := mem_commandsFor hc
    have lt := Topology.toNat_lt_of_mem_clientSlots hslot
    have own : ((ClientInvocation.of l.topology l.slice l.params target slot).toCommand l.params.program).value? "-p" =
        some slot.toNat.repr := by
      rw [ClientInvocation.value?_toCommand]
      rfl
    refine ⟨slot.toNat, ?_, ?_⟩
    · rw [Command.number?, own]
      exact Nat.toNat?_repr _
    · unfold maxPort
      omega
  · obtain ⟨slot, -, rfl⟩ := mem_commandsFor hc
    obtain ⟨lt, hid⟩ := clientTarget_eq slice slot
    refine ⟨_, ClientInvocation.calls?_toCommand _ _ rfl, ?_⟩
    rw [hid]
    exact port_le_of_checked slice checked lt

/-! ## The pieces of a launch -/

section Pieces

variable (r : Asked)

theorem one_le_toNat_iff {n : UInt32} : decide (1 ≤ n.toNat) = true ↔ ¬n = 0 := by
  rw [decide_eq_true_iff, ← UInt32.toNat_inj, UInt32.toNat_zero]
  omega

theorem Topology.check_guarded : Guarded r.sizeChecks
    (check r.partition r.servers r.clients r.serverVms r.clientVms) r.Sizes := by
  have zero_iff (n : UInt32) : n = 0 ↔ n.toNat = 0 := UInt32.toNat_inj.symm
  have enough {n d : UInt32} (hd : ¬d = 0) : decide (d.toNat ≤ n.toNat) = true ↔ ¬n / d = 0 := by
    rw [zero_iff] at hd
    rw [decide_eq_true_iff, zero_iff, UInt32.toNat_div, Nat.div_eq_zero_iff]
    omega
  have even {n d : UInt32} : decide (r.strict = true → (n % d).toNat = 0) = true ↔
      ¬(r.partition = .strict ∧ n % d ≠ 0) := by
    unfold Asked.partition
    rw [decide_eq_true_iff, ← zero_iff]
    cases r.strict <;> simp
  unfold check Asked.sizeChecks
  simp only [← UInt32.toNat_mod, UInt32.ofNat_toNat]
  refine .ite one_le_toNat_iff fun _ => .ite one_le_toNat_iff fun _ => ?_
  refine .dite one_le_toNat_iff fun hs => .dite one_le_toNat_iff fun hc => ?_
  refine .dite (enough hs) fun _ => .dite (enough hc) fun _ => .ite even fun _ => .ite even fun _ => ?_
  exact .ok ⟨rfl, rfl, rfl, rfl⟩

theorem TopologyFlags.resolve_guarded (t : TopologyFlags) (e : ExperimentFlags) (file : FileSettings) :
    let r := Asked.ofShared (sharedInForce t e file)
    Guarded (r.sizeChecks.map (.mapError .placement)) (t.resolve file).result
      fun p => r.Sizes p.1 ∧ p.2 = r.vmId := by
  intro r
  rw [t.resolve_eq_of_file e file, resolve]
  have built := (Topology.check_guarded r).mapError LaunchError.placement
  rw [← Topology.build_result] at built
  exact .bind_ok built fun topology sizes => ⟨_, rfl, sizes, rfl⟩

theorem ExperimentFlags.resolve_guarded (t : TopologyFlags) (e : ExperimentFlags) (file : FileSettings) :
    let r := Asked.ofShared (sharedInForce t e file)
    Guarded (r.rateChecks.map (.mapError LaunchError.setting)) (e.resolve file)
      fun x => x.rate = r.rate ∧ x.opt = r.opt ∧ x.port = r.port := by
  intro r
  rw [e.resolve_eq_of_file t file]
  exact .ite one_le_toNat_iff fun _ => .ok ⟨rfl, rfl, rfl⟩

theorem ClientLaunch.checkSweep_guarded {params : ClientParams} (rate : params.rate = r.rate) (opt : params.opt = r.opt)
    (targets : List UInt32) (trials : UInt32) :
    Guarded (r.sweepChecks targets trials) (checkSweep params targets trials) fun _ => True := by
  unfold checkSweep Asked.sweepChecks
  rw [rate, opt]
  refine .ite (by simp) fun _ => .ite one_le_toNat_iff fun _ => ?_
  cases r.opt with
  | none => exact .ok trivial
  | some o => exact .ite (by simp [UInt32.le_iff_toNat_le]) fun _ => .ok trivial

theorem sliceFor_guarded {t : Topology} (sizes : r.Sizes t) :
    Guarded (r.ordinalChecks.map (.mapError .placement)) (sliceFor t r.vmId).result
      fun s => t.slice r.vmId = .ok s := by
  obtain ⟨-, -, vms, -⟩ := sizes
  have slice : Guarded r.ordinalChecks (t.slice r.vmId) fun s => t.slice r.vmId = .ok s := by
    unfold Topology.slice Asked.ordinalChecks
    rw [← vms]
    exact .ite (by simp [UInt32.le_iff_toNat_le]) fun h => .ok (if_neg h)
  exact .bind_ok (slice.mapError LaunchError.placement) fun s hs => ⟨s, rfl, hs⟩

theorem checkPort_guarded (role : Role) (port : Nat) :
    Guarded [Asked.portCheck role port] (checkPort role port) fun _ => port ≤ maxPort :=
  .ite (by simp [Asked.portCheck, maxPort]) fun h => .ok (Nat.le_of_not_lt h)

theorem toNat_lastClient {t : Topology} (sizes : r.Sizes t) : (t.clientsPerVm - 1).toNat = r.lastClientPort := by
  obtain ⟨-, clients, -, vms⟩ := sizes
  have h := t.exact.lastSlot
  rw [t.toNat_clientsPerVm, clients, vms] at h
  unfold Asked.lastClientPort
  omega

theorem lastServerPort_eq {t : Topology} (sizes : r.Sizes t) {s : ServerSlice} (hs : t.slice r.vmId = .ok s) :
    lastServerPort r.port s = r.lastServerPort := by
  obtain ⟨servers, -, vms, -⟩ := sizes
  have h := ServerLaunch.lastServerPort_add_one r.port hs
  rw [ServerLaunch.portsEnd, t.toNat_serversPerVm, servers, vms] at h
  unfold Asked.lastServerPort
  omega

theorem ServerLaunch.build_guarded {t : Topology} (sizes : r.Sizes t) {params : ServerParams}
    (port : params.basePort = r.port) :
    Guarded (r.ordinalChecks.map (.mapError .placement) ++ [Asked.portCheck .server r.lastServerPort])
      (build t r.vmId params).result InRange := by
  refine .bind (sliceFor_guarded r sizes) fun s hs => ?_
  rw [← lastServerPort_eq r sizes hs, ← port]
  refine .bind_ok (checkPort_guarded _ _) fun _ checked => ⟨_, rfl, ?_⟩
  exact inRange hs checked

theorem ClientLaunch.build_guarded {t : Topology} (sizes : r.Sizes t) {params : ClientParams}
    (port : params.basePort = r.port) (rate : params.rate = r.rate) (opt : params.opt = r.opt) (targets : List UInt32)
    (trials : UInt32) :
    Guarded ((r.sweepChecks targets trials).map (.mapError .setting) ++ (r.ordinalChecks.map (.mapError .placement) ++
        [Asked.portCheck .client r.lastClientPort, Asked.portCheck .server r.lastServerPort]))
      (build t r.vmId params targets trials).result InRange := by
  refine .bind ((checkSweep_guarded r rate opt targets trials).mapError LaunchError.setting) fun _ _ => ?_
  refine .bind (sliceFor_guarded r sizes) fun s hs => ?_
  rw [← toNat_lastClient r sizes, ← lastServerPort_eq r sizes hs, ← port]
  rw [← List.singleton_append]
  refine .bind (checkPort_guarded _ _) fun _ clients => ?_
  refine .bind_ok (checkPort_guarded _ _) fun _ checked => ⟨_, rfl, ?_⟩
  exact inRange hs clients checked

end Pieces

/-! ## The whole of it -/

theorem ServerFlags.launch_guarded (f : ServerFlags) (file : FileSettings) (localIp : String) :
    Guarded (f.checks file) (f.launch file localIp).result ServerLaunch.InRange := by
  refine .bind (f.topology.resolve_guarded f.experiment file) ?_
  rintro ⟨t, v⟩ ⟨sizes, rfl⟩
  refine .bind (f.experiment.resolve_guarded f.topology file) fun e ⟨_, _, port⟩ => ?_
  exact ServerLaunch.build_guarded (f.asked file) sizes port

theorem ClientFlags.launch_guarded (f : ClientFlags) (file : FileSettings) :
    Guarded (f.checks file) (f.launch file).result ClientLaunch.InRange := by
  refine .bind (f.topology.resolve_guarded f.experiment file) ?_
  rintro ⟨t, v⟩ ⟨sizes, rfl⟩
  refine .bind (f.experiment.resolve_guarded f.topology file) fun e ⟨rate, opt, port⟩ => ?_
  have targets : f.targets file = f.valuesInForce file .num :=
    (inForce_list f.num file.client.num [Default.target]).symm
  have trials : (f.trial <|> file.client.trial).getD 1 = f.valuesInForce file .trial :=
    (inForce_eq f.trial file.client.trial 1).symm
  show Guarded _ (ClientLaunch.build t _ _ (f.targets file) ((f.trial <|> file.client.trial).getD 1)).result _
  rw [targets, trials]
  exact ClientLaunch.build_guarded (f.asked file) sizes port rate opt _ _

/-- Whatever the flags and the file: a launch is refused for the first of its checks that does
    not hold, with the error of that check, and accepted exactly if all hold. What is accepted
    has no more workers in a batch than there are ports, and all the ports that its workers
    listen on, are numbered by or call exist. -/
theorem refused_for_first_fault (file : FileSettings) (localIp : String) :
    (∀ f : ClientFlags,
      (∀ e, (f.launch file).result = .error e ↔ firstFault? (f.checks file) = some e) ∧
        ((∃ l, (f.launch file).result = .ok l) ↔ ∀ c ∈ f.checks file, c.holds = true) ∧
        ∀ l, (f.launch file).result = .ok l → l.InRange) ∧
      ∀ f : ServerFlags,
        (∀ e, (f.launch file localIp).result = .error e ↔ firstFault? (f.checks file) = some e) ∧
          ((∃ l, (f.launch file localIp).result = .ok l) ↔ ∀ c ∈ f.checks file, c.holds = true) ∧
          ∀ l, (f.launch file localIp).result = .ok l → l.InRange := by
  constructor
  · intro f
    have h := f.launch_guarded file
    exact ⟨fun e => h.error_iff, h.ok_iff, fun l => h.fits⟩
  · intro f
    have h := f.launch_guarded file localIp
    exact ⟨fun e => h.error_iff, h.ok_iff, fun l => h.fits⟩

/-- The largest counts there are, the last VM of them, and three faults of a sweep: the trials
    come first, then the rate, and then a port far beyond the highest. Servers are not asked
    about trials or the rate. As many clients as there are ports, who call the highest of them,
    are accepted. -/
theorem refused_for_first_fault_largest :
    let topology : TopologyFlags := {
      totalServers := some 4294967295, totalClients := some 4294967295, serverVms := some 4294967295
      clientVms := some 4294967295, vmId := some 4294967294 }
    let experiment : ExperimentFlags := { opt := some .hybrid4 }
    (ClientFlags.launch { topology, experiment, trial := some 0 } {}).result = .error (.setting .zeroTrials) ∧
      (ClientFlags.launch { topology, experiment } {}).result =
        .error (.setting (.optimizationNeedsRate .hybrid4 1)) ∧
      (ClientFlags.launch { topology } {}).result = .error (.portOutOfRange .server 4294975294) ∧
      (ServerFlags.launch { topology, experiment } {} "::1").result =
        .error (.portOutOfRange .server 4294975294) ∧
      ∃ l, (ClientFlags.launch {
          topology := { totalClients := some 65536 }, experiment := { port := some 65535 } } {}).result = .ok l ∧
        l.InRange := by
  intro topology experiment
  obtain ⟨clients, servers⟩ := refused_for_first_fault {} "::1"
  refine ⟨((clients _).1 _).mpr (by decide), ((clients _).1 _).mpr (by decide), ((clients _).1 _).mpr (by decide),
    ((servers _).1 _).mpr (by decide), ?_⟩
  obtain ⟨-, accepted, inRange⟩ := clients {
    topology := { totalClients := some 65536 }, experiment := { port := some 65535 } }
  obtain ⟨l, built⟩ := accepted.mpr (by decide)
  exact ⟨l, built, inRange l built⟩

end Fleet

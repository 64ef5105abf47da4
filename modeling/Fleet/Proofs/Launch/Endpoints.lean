/-
  Fleet.Proofs.Launch.Endpoints — server VMs and client VMs agree on who is called where.

  The two launches are built on different machines and share nothing but the flags and the
  file they are built from. A server is told its base port and its id, a client a finished
  address. What makes them meet: both take the same slice for the same ordinal
  (`server_launch_of_client_launch`), the id a client slot talks to is one of the slice's,
  and the port check of the last id bounds every port of the slice
  (`port_le_of_checked`).

  `clients_meet_servers`: whatever a client launch starts for whatever target, exactly one
  worker of the server launch listens where the client calls, and the two were told the same
  about the experiment.
-/

import Fleet.Proofs.Launch.Building
import Fleet.Proofs.Worker.Arguments

namespace Fleet

/-! ## Ids and ports of a slice -/

theorem IdRange.getElem?_toList (r : IdRange) (k : Nat) :
    r.toList[k]? = if k < r.size then some (r.first + UInt32.ofNat k) else none :=
  getElem?_map_range _ _ _

theorem port_le_of_checked {t : Topology} {v : UInt32} {s : ServerSlice} {base : UInt16} (hs : t.slice v = .ok s)
    (checked : lastServerPort base s ≤ maxPort) {k : Nat} (hk : k < s.ids.size) :
    workerPort base (s.ids.first + UInt32.ofNat k) ≤ maxPort := by
  have hlast := t.exact.lastId v s hs
  unfold lastServerPort at checked
  unfold workerPort at checked ⊢
  rw [IdRange.toNat_add_ofNat hk]
  unfold IdRange.size at hk
  omega

theorem clientTarget_eq {t : Topology} {v : UInt32} {s : ServerSlice} (hs : t.slice v = .ok s) (slot : UInt32) :
    slot.toNat % s.count.toNat < s.ids.size ∧
      s.clientTarget slot = s.ids.first + UInt32.ofNat (slot.toNat % s.count.toNat) := by
  obtain ⟨-, rfl⟩ := t.slice_eq_ok_iff.mp hs
  constructor
  · rw [Topology.slice_size hs]; exact Nat.mod_lt _ t.serversPerVm_pos
  · rw [ServerSlice.clientTarget, ← UInt32.toNat_mod, UInt32.ofNat_toNat]; rfl

/-! ## Servers in place -/

theorem ServerLaunch.getElem?_invocations (l : ServerLaunch) (j : Nat) :
    l.invocations[j]? =
      if j < l.slice.ids.size then some (.of l.topology l.params (l.slice.ids.first + UInt32.ofNat j)) else none := by
  rw [invocations, List.getElem?_map, IdRange.getElem?_toList]
  split <;> rfl

theorem ServerLaunch.getElem?_commands (l : ServerLaunch) (j : Nat) :
    l.commands[j]? = l.invocations[j]?.map fun i => i.toCommand (.ofNat j) l.params.program := by
  rw [commands, List.getElem?_map, List.getElem?_zipIdx, Option.map_map]
  simp [Function.comp_def]

theorem ServerLaunch.listens_inj {l : ServerLaunch} {j k : Nat} {a b : Command} (ha : l.commands[j]? = some a)
    (hb : l.commands[k]? = some b) (h : a.listens? = b.listens?) : j = k := by
  rw [getElem?_commands, getElem?_invocations] at ha hb
  split at ha
  · rename_i hj
    split at hb
    · rename_i hk
      simp only [Option.map_some, Option.some.injEq] at ha hb
      subst ha hb
      rw [ServerInvocation.listens?_toCommand, ServerInvocation.listens?_toCommand] at h
      simp only [ServerInvocation.of, IdRange.toNat_add_ofNat hj, IdRange.toNat_add_ofNat hk, Option.some.injEq] at h
      omega
    · simp at hb
  · simp at ha

/-! ## One launch for the other -/

/-- Where a client launch can be built, so can the server launch with the same flags for
    the topology and the experiment, and of the same slice. -/
theorem server_launch_of_client_launch {clients : ClientFlags} {servers : ServerFlags} {file : FileSettings}
    {lc : ClientLaunch} (localIp : String) (sameTopology : servers.topology = clients.topology)
    (sameExperiment : servers.experiment = clients.experiment) (built : (clients.launch file).result = .ok lc) :
    ∃ ls e, (servers.launch file localIp).result = .ok ls ∧ ls.topology = lc.topology ∧ ls.vmId = lc.vmId ∧
      ls.slice = lc.slice ∧ ls.params = servers.params file localIp e ∧ lc.params = clients.params file e ∧
      lc.topology.slice lc.vmId = .ok lc.slice ∧ lastServerPort e.port lc.slice ≤ maxPort := by
  obtain ⟨t, v, e, ht, he, hl⟩ := ClientFlags.launch_eq_ok_iff.mp built
  obtain ⟨-, s, hs, -, hp, rfl⟩ := ClientLaunch.build_eq_ok_iff.mp hl
  rw [← sameTopology] at ht
  rw [← sameExperiment] at he
  refine ⟨⟨t, v, s, servers.params file localIp e⟩, e, ?_, rfl, rfl, rfl, rfl, rfl, hs, hp⟩
  exact ServerFlags.launch_eq_ok_iff.mpr ⟨t, v, e, ht, he, ServerLaunch.build_eq_ok_iff.mpr ⟨s, hs, hp, rfl⟩⟩

/-! ## Meeting -/

/-- A client and a server that belong together: the one calls where the other listens, and
    both were told the same about the experiment. -/
structure Meet (c : Command) (client : ClientInvocation) (s : Command) (server : ServerInvocation) : Prop where
  calls : c.calls? = some server.bindPort
  listens : s.listens? = some server.bindPort
  port : server.bindPort = server.basePort.toNat + server.serverId.toNat
  target : server.serverId = client.targetServer
  inRange : server.bindPort ≤ 65535
  told : ∀ flag ∈ ["-d", "-t", "-k"], ∃ value, c.value? flag = some value ∧ s.value? flag = some value
  opt : c.value? "-o" = s.value? "-o"

theorem meet_of_target (t : Topology) (s : ServerSlice) (cp : ClientParams) (sp : ServerParams)
    (basePort : cp.basePort = sp.basePort) (depth : cp.depth = sp.depth) (ret : cp.ret = sp.ret)
    (rate : cp.rate = sp.rate) (opt : cp.opt = sp.opt) (target slot place : UInt32)
    (inRange : workerPort sp.basePort (s.clientTarget slot) ≤ maxPort) :
    Meet ((ClientInvocation.of t s cp target slot).toCommand cp.program) (.of t s cp target slot)
      ((ServerInvocation.of t sp (s.clientTarget slot)).toCommand place sp.program)
      (.of t sp (s.clientTarget slot)) where
  calls := by
    show _ = some (workerPort sp.basePort (s.clientTarget slot))
    rw [← basePort]
    exact ClientInvocation.calls?_toCommand _ _ rfl
  listens := ServerInvocation.listens?_toCommand _ _ _
  port := rfl
  target := rfl
  inRange := inRange
  told := by
    intro flag hflag
    simp only [List.mem_cons, List.not_mem_nil, or_false] at hflag
    simp only [ClientInvocation.value?_toCommand, ServerInvocation.value?_toCommand]
    rcases hflag with rfl | rfl | rfl
    · refine ⟨toString sp.depth, ?_, rfl⟩
      rw [← depth]; rfl
    · refine ⟨sp.ret.flag, ?_, rfl⟩
      rw [ClientInvocation.lookup_type, ← ret]; rfl
    · refine ⟨toString sp.rate, ?_, rfl⟩
      rw [← rate]; rfl
  opt := by
    rw [ClientInvocation.value?_toCommand, ServerInvocation.value?_toCommand, ClientInvocation.lookup_opt,
      ServerInvocation.lookup_opt]
    show cp.opt.map _ = sp.opt.map _
    rw [opt]

/-- Where a client launch can be built, the server launch with the same flags for the
    topology and the experiment can be built too, on whatever machine, for the same slice;
    and whatever client command it is of whatever target, exactly one of the servers
    listens where it calls. -/
theorem clients_meet_servers {clients : ClientFlags} {servers : ServerFlags} {file : FileSettings} {localIp : String}
    {lc : ClientLaunch} (sameTopology : servers.topology = clients.topology)
    (sameExperiment : servers.experiment = clients.experiment) (built : (clients.launch file).result = .ok lc) :
    ∃ ls, (servers.launch file localIp).result = .ok ls ∧
      ls.topology = lc.topology ∧ ls.vmId = lc.vmId ∧ ls.slice = lc.slice ∧
      ∀ (target : UInt32) (i : Nat) (c : Command), (lc.commandsFor target)[i]? = some c →
        ∃ client, (lc.invocationsFor target)[i]? = some client ∧ c = client.toCommand lc.params.program ∧
          ∃ j s server, ls.commands[j]? = some s ∧ ls.invocations[j]? = some server ∧ Meet c client s server ∧
            ∀ (k : Nat) (s' : Command), ls.commands[k]? = some s' → s'.listens? = c.calls? → k = j := by
  obtain ⟨ls, e, hls, ht, hv, hs, hsp, hcp, slice, checked⟩ :=
    server_launch_of_client_launch localIp sameTopology sameExperiment built
  refine ⟨ls, hls, ht, hv, hs, fun target i c hc => ?_⟩
  rw [ClientLaunch.commandsFor, List.getElem?_map, Option.map_eq_some_iff] at hc
  obtain ⟨client, hclient, rfl⟩ := hc
  refine ⟨client, hclient, rfl, ?_⟩
  rw [ClientLaunch.invocationsFor, List.getElem?_map, Option.map_eq_some_iff] at hclient
  obtain ⟨slot, -, rfl⟩ := hclient
  obtain ⟨hj, hid⟩ := clientTarget_eq slice slot
  have server : ls.invocations[slot.toNat % lc.slice.count.toNat]? =
      some (.of lc.topology ls.params (lc.slice.clientTarget slot)) := by
    rw [ServerLaunch.getElem?_invocations, hs, if_pos hj, ← hid, ht]
  have command := ls.getElem?_commands (slot.toNat % lc.slice.count.toNat)
  rw [server, Option.map_some] at command
  have inRange := port_le_of_checked slice checked hj
  rw [← hid] at inRange
  have meet := meet_of_target lc.topology lc.slice lc.params ls.params
    (by rw [hcp, hsp]; rfl) (by rw [hcp, hsp]; rfl) (by rw [hcp, hsp]; rfl) (by rw [hcp, hsp]; rfl)
    (by rw [hcp, hsp]; rfl) target slot (.ofNat (slot.toNat % lc.slice.count.toNat)) (by rw [hsp]; exact inRange)
  refine ⟨_, _, _, command, server, meet, fun k s' hk hcalls => ?_⟩
  exact ServerLaunch.listens_inj hk command (by rw [hcalls, meet.calls, meet.listens])

/-- Two servers on one VM and five clients, which are told of an address with colons in it. -/
theorem clients_meet_servers_behind_colons :
    ∃ lc, (ClientFlags.launch { topology := { totalServers := some 2, totalClients := some 5 }, ip := some "fe80::1" }
        {}).result = .ok lc ∧
      ∃ ls, (ServerFlags.launch { topology := { totalServers := some 2, totalClients := some 5 } } {}
          "10.0.0.1").result = .ok ls ∧
        ls.topology = lc.topology ∧ ls.vmId = lc.vmId ∧ ls.slice = lc.slice ∧
        ∀ (target : UInt32) (i : Nat) (c : Command), (lc.commandsFor target)[i]? = some c →
          ∃ client, (lc.invocationsFor target)[i]? = some client ∧ c = client.toCommand lc.params.program ∧
            ∃ j s server, ls.commands[j]? = some s ∧ ls.invocations[j]? = some server ∧ Meet c client s server ∧
              ∀ (k : Nat) (s' : Command), ls.commands[k]? = some s' → s'.listens? = c.calls? → k = j := by
  obtain ⟨lc, built⟩ : ∃ lc, (ClientFlags.launch
      { topology := { totalServers := some 2, totalClients := some 5 }, ip := some "fe80::1" } {}).result = .ok lc :=
    ⟨_, rfl⟩
  exact ⟨lc, built, clients_meet_servers rfl rfl built⟩

end Fleet

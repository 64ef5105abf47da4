/-
  Fleet.Proofs.Launch.Ports — the ports at which the workers of an accepted launch meet.

  A launch is checked for one port, that of the last server of its slice, and from above
  only. No other port of the slice exceeds it (`port_le_of_mem`), so every port exists.
  From below nothing is checked. The ports begin at the base port plus the first id of the
  slice, so port 0 is given out exactly where both are 0 (`workerPort_eq_zero_iff`), and the
  slice that begins with id 0 is that of VM 0 (`firstId_eq_zero_iff`).

  `ports_usable_above_zero`: in every accepted launch, of servers or of clients, all ports
  are usable, unless it is the launch of VM 0 over base port 0, and there only the port of
  server 0 is not; no two server ids share a port. The launch that is left out is accepted
  all the same (`base_port_zero_accepted`).
-/

import Fleet.Proofs.Launch.Endpoints

namespace Fleet

/-! ## Ports -/

/-- A port at which one worker can listen and another call it. Who listens on port 0 gets
    any free port, and nobody can call it. -/
def UsablePort (port : Nat) : Prop := 1 ≤ port ∧ port ≤ 65535

theorem workerPort_eq_zero_iff {base : UInt16} {id : UInt32} : workerPort base id = 0 ↔ base = 0 ∧ id = 0 := by
  rw [workerPort, Nat.add_eq_zero_iff, ← UInt16.toNat_inj, ← UInt32.toNat_inj]
  rfl

theorem workerPort_inj {base : UInt16} {a b : UInt32} (h : workerPort base a = workerPort base b) : a = b :=
  UInt32.toNat_inj.mp (Nat.add_left_cancel h)

theorem usablePort_iff {base : UInt16} {id : UInt32} (checked : workerPort base id ≤ maxPort) :
    UsablePort (workerPort base id) ↔ ¬(base = 0 ∧ id = 0) := by
  rw [← workerPort_eq_zero_iff]
  show 0 < _ ∧ _ ↔ _
  rw [Nat.pos_iff_ne_zero]
  exact and_iff_left checked

/-- What passed the check is usable but for the port of server 0 over base port 0. -/
theorem usable_or_lowest {base : UInt16} {id : UInt32} (checked : workerPort base id ≤ maxPort) :
    UsablePort (workerPort base id) ∨ base = 0 ∧ id = 0 ∧ workerPort base id = 0 := by
  rcases Decidable.em (base = 0 ∧ id = 0) with lowest | above
  · exact Or.inr ⟨lowest.1, lowest.2, workerPort_eq_zero_iff.mpr lowest⟩
  · exact Or.inl ((usablePort_iff checked).mpr above)

/-! ## The ports of a slice -/

section Slice

variable {t : Topology} {v : UInt32} {s : ServerSlice} {base : UInt16} {id : UInt32}

theorem port_le_of_mem (hs : t.slice v = .ok s) (checked : lastServerPort base s ≤ maxPort)
    (h : id ∈ s.ids.toList) : workerPort base id ≤ maxPort := by
  obtain ⟨k, hk, rfl⟩ := List.mem_map.mp h
  exact port_le_of_checked hs checked (List.mem_range.mp hk)

theorem firstId_eq_zero_iff (hs : t.slice v = .ok s) : s.firstId = 0 ↔ v = 0 := by
  have first : s.firstId.toNat = v.toNat * t.serversPerVm.toNat := t.exact.firstId v s hs
  have share := t.serversPerVm_pos
  rw [← UInt32.toNat_inj, ← UInt32.toNat_inj, first, UInt32.toNat_zero, Nat.mul_eq_zero]
  omega

theorem firstId_mem (hs : t.slice v = .ok s) : s.firstId ∈ s.ids.toList := by
  have share := t.serversPerVm_pos
  obtain ⟨first, stop⟩ := Topology.slice_bounds hs
  have behind : s.ids.first.toNat < s.ids.stop.toNat := by omega
  exact IdRange.mem_toList.mpr ((s.ids.contains_iff _).mpr ⟨Nat.le_refl _, behind⟩)

theorem firstId_eq_zero_of_mem (h : (0 : UInt32) ∈ s.ids.toList) : s.firstId = 0 := by
  obtain ⟨le, -⟩ := (s.ids.contains_iff 0).mp (IdRange.mem_toList.mp h)
  exact UInt32.toNat_inj.mp (Nat.le_zero.mp le)

/-- Ports of a slice, that of its first server among them, are usable unless the first is 0. -/
theorem usable_ports_iff (hs : t.slice v = .ok s) (checked : lastServerPort base s ≤ maxPort) {ids : List UInt32}
    (within : ∀ id ∈ ids, id ∈ s.ids.toList) (first : s.firstId ∈ ids) :
    (∀ id ∈ ids, UsablePort (workerPort base id)) ↔ ¬(base = 0 ∧ v = 0) := by
  rw [← firstId_eq_zero_iff hs]
  constructor
  · intro usable
    exact (usablePort_iff (port_le_of_mem hs checked (within _ first))).mp (usable _ first)
  · intro apart id hid
    refine (usablePort_iff (port_le_of_mem hs checked (within id hid))).mpr ?_
    rintro ⟨hbase, rfl⟩
    exact apart ⟨hbase, firstId_eq_zero_of_mem (within 0 hid)⟩

theorem clientTarget_mem (hs : t.slice v = .ok s) (slot : UInt32) : s.clientTarget slot ∈ s.ids.toList := by
  obtain ⟨lt, eq⟩ := clientTarget_eq hs slot
  rw [eq]
  exact List.mem_map.mpr ⟨_, List.mem_range.mpr lt, rfl⟩

theorem firstId_mem_targets (hs : t.slice v = .ok s) : s.firstId ∈ t.clientSlots.map s.clientTarget := by
  have slot : (0 : UInt32) ∈ t.clientSlots := List.mem_map.mpr ⟨0, List.mem_range.mpr t.clientsPerVm_pos, rfl⟩
  refine List.mem_map.mpr ⟨0, slot, ?_⟩
  obtain ⟨-, eq⟩ := clientTarget_eq hs 0
  rw [eq, UInt32.toNat_zero, Nat.zero_mod]
  exact UInt32.add_zero _

end Slice

/-! ## The ports of a launch -/

def ClientInvocation.addressPort? (i : ClientInvocation) : Option Nat := (behindLastColon i.serverAddr).toNat?

theorem ClientInvocation.addressPort?_of (t : Topology) (s : ServerSlice) (params : ClientParams)
    (target slot : UInt32) :
    (of t s params target slot).addressPort? = some (workerPort params.basePort (s.clientTarget slot)) := by
  show (behindLastColon (params.serverIp ++ ":" ++ (workerPort _ _).repr)).toNat? = _
  rw [behindLastColon_append _ (not_mem_repr _ rfl), Nat.toNat?_repr]

theorem ServerLaunch.usable_ports {t : Topology} {v : UInt32} {params : ServerParams} {l : ServerLaunch}
    (built : (build t v params).result = .ok l) :
    ((∀ i ∈ l.invocations, UsablePort i.bindPort) ↔ ¬(params.basePort = 0 ∧ v = 0)) ∧
      ∀ i ∈ l.invocations, UsablePort i.bindPort ∨ params.basePort = 0 ∧ i.serverId = 0 ∧ i.bindPort = 0 := by
  obtain ⟨s, hs, checked, rfl⟩ := build_eq_ok_iff.mp built
  constructor
  · rw [← usable_ports_iff hs checked (fun _ h => h) (firstId_mem hs)]
    exact List.forall_mem_map
  · intro i hi
    obtain ⟨id, hid, rfl⟩ := List.mem_map.mp hi
    exact usable_or_lowest (port_le_of_mem hs checked hid)

theorem ClientLaunch.usable_ports {t : Topology} {v : UInt32} {params : ClientParams} {targets : List UInt32}
    {trials : UInt32} {l : ClientLaunch} (built : (build t v params targets trials).result = .ok l) (target : UInt32) :
    ((∀ i ∈ l.invocationsFor target, ∃ port, i.addressPort? = some port ∧ UsablePort port) ↔
        ¬(params.basePort = 0 ∧ v = 0)) ∧
      ∀ i ∈ l.invocationsFor target, ∃ port, i.addressPort? = some port ∧
        (UsablePort port ∨ params.basePort = 0 ∧ i.targetServer = 0 ∧ port = 0) := by
  obtain ⟨-, s, hs, -, checked, rfl⟩ := build_eq_ok_iff.mp built
  constructor
  · have within : ∀ id ∈ t.clientSlots.map s.clientTarget, id ∈ s.ids.toList :=
      List.forall_mem_map.mpr fun slot _ => clientTarget_mem hs slot
    rw [← usable_ports_iff hs checked within (firstId_mem_targets hs), List.forall_mem_map]
    refine List.forall_mem_map.trans (forall₂_congr fun slot _ => ?_)
    simp only [ClientInvocation.addressPort?_of, Option.some.injEq, exists_eq_left']
  · intro i hi
    obtain ⟨slot, -, rfl⟩ := List.mem_map.mp hi
    exact ⟨_, ClientInvocation.addressPort?_of t s params target slot,
      usable_or_lowest (port_le_of_mem hs checked (clientTarget_mem hs slot))⟩

theorem bindPorts_nodup (t : Topology) (params : ServerParams) :
    ((List.range t.totalServers.toNat).map fun id => (ServerInvocation.of t params (.ofNat id)).bindPort).Nodup := by
  refine List.Nodup.map_on ?_ List.nodup_range
  intro a ha b hb same
  have word {id : Nat} (h : id ∈ List.range t.totalServers.toNat) : (UInt32.ofNat id).toNat = id :=
    UInt32.toNat_ofNat_of_lt' (Nat.lt_trans (List.mem_range.mp h) t.totalServers.toNat_lt)
  rw [← word ha, ← word hb, workerPort_inj same]

/-! ## The whole of it -/

/-- The ports of what is accepted. A server VM's launch has only usable ports to listen on,
    and a client VM's only usable ports to call, unless it is VM 0 over base port 0; and
    there it is server 0, and no other, whose port is 0. Whatever the base port, no two
    server ids of a topology share a port. -/
theorem ports_usable_above_zero (t : Topology) (v : UInt32) :
    (∀ params l, (ServerLaunch.build t v params).result = .ok l →
      ((∀ i ∈ l.invocations, UsablePort i.bindPort) ↔ ¬(params.basePort = 0 ∧ v = 0)) ∧
        ∀ i ∈ l.invocations, UsablePort i.bindPort ∨ params.basePort = 0 ∧ i.serverId = 0 ∧ i.bindPort = 0) ∧
      (∀ params targets trials l, (ClientLaunch.build t v params targets trials).result = .ok l → ∀ target,
        ((∀ i ∈ l.invocationsFor target, ∃ port, i.addressPort? = some port ∧ UsablePort port) ↔
            ¬(params.basePort = 0 ∧ v = 0)) ∧
          ∀ i ∈ l.invocationsFor target, ∃ port, i.addressPort? = some port ∧
            (UsablePort port ∨ params.basePort = 0 ∧ i.targetServer = 0 ∧ port = 0)) ∧
      ∀ params, ((List.range t.totalServers.toNat).map fun id =>
        (ServerInvocation.of t params (.ofNat id)).bindPort).Nodup :=
  ⟨fun _ _ built => ServerLaunch.usable_ports built,
    fun _ _ _ _ built target => ClientLaunch.usable_ports built target, bindPorts_nodup t⟩

/-- Four servers on two VMs over base port 0. The second VM has the ports from 2 up, and its
    clients call them. -/
theorem ports_usable_above_zero_second_vm :
    let t : Topology := ⟨4, 3, 2, 1, by decide, by decide, by decide, by decide⟩
    let servers : ServerParams := ⟨"server", "::1", 0, 2, .bloom, none, 1, "hosts.txt", none⟩
    let clients : ClientParams := ⟨"client", "::1", 0, 2, .bloom, none, 1, 10, ".", "s"⟩
    (∃ l, (ServerLaunch.build t 1 servers).result = .ok l ∧ ∀ i ∈ l.invocations, UsablePort i.bindPort) ∧
      ∃ l, (ClientLaunch.build t 1 clients [7] 1).result = .ok l ∧
        ∀ i ∈ l.invocationsFor 7, ∃ port, i.addressPort? = some port ∧ UsablePort port := by
  intro t servers clients
  obtain ⟨listened, called, -⟩ := ports_usable_above_zero t 1
  have slice : t.slice 1 = .ok ⟨2, 2⟩ := t.slice_eq_ok_iff.mpr ⟨by decide, by decide⟩
  have checked : lastServerPort 0 ⟨2, 2⟩ ≤ maxPort := by decide
  have started : (ServerLaunch.build t 1 servers).result = .ok _ :=
    ServerLaunch.build_eq_ok_iff.mpr ⟨_, slice, checked, rfl⟩
  have swept : (ClientLaunch.build t 1 clients [7] 1).result = .ok _ :=
    ClientLaunch.build_eq_ok_iff.mpr ⟨rfl, _, slice, by decide, checked, rfl⟩
  exact ⟨⟨_, started, (listened _ _ started).1.mpr (by decide)⟩, _, swept, (called _ _ _ _ swept 7).1.mpr (by decide)⟩

/-- One server over base port 0 is accepted and told to listen on port 0, and a client of
    its VM is accepted and told to call it there. -/
theorem base_port_zero_accepted :
    let t : Topology := ⟨1, 1, 1, 1, by decide, by decide, by decide, by decide⟩
    let servers : ServerParams := ⟨"server", "127.0.0.1", 0, 2, .bloom, none, 1, "hosts.txt", none⟩
    let clients : ClientParams := ⟨"client", "127.0.0.1", 0, 2, .bloom, none, 1, 10, ".", "s"⟩
    (∃ l, (ServerLaunch.build t 0 servers).result = .ok l ∧ l.invocations.map (·.bindPort) = [0]) ∧
      (∃ l, (ClientLaunch.build t 0 clients [7] 1).result = .ok l ∧
        (l.invocationsFor 7).map (·.serverAddr) = ["127.0.0.1:0"]) ∧ ¬UsablePort 0 := by
  intro t servers clients
  have slice : t.slice 0 = .ok ⟨0, 1⟩ := t.slice_eq_ok_iff.mpr ⟨by decide, by decide⟩
  have checked : lastServerPort 0 ⟨0, 1⟩ ≤ maxPort := by decide
  refine ⟨⟨_, ServerLaunch.build_eq_ok_iff.mpr ⟨_, slice, checked, rfl⟩, rfl⟩,
    ⟨_, ClientLaunch.build_eq_ok_iff.mpr ⟨rfl, _, slice, by decide, checked, rfl⟩, by decide +kernel⟩, ?_⟩
  rintro ⟨le, -⟩
  exact absurd le (by decide)

end Fleet

/-
  Fleet.Proofs.Launch.Lockstep — what a launch shows and what it starts, place by place.

  A client launch shows its slots with their servers, and for every target it works out
  invocations and the commands made from them. The three lists are made apart from each
  other. At every place they are about one client (`ClientLaunch.Place`): its number is the
  place, its server is the one the slot shows, and its address ends in that server's port.
  A target changes the `-b` value and the log of a command and nothing else
  (`commandsFor_target`).

  A server launch starts one server for every id of its slice (`ServerLaunch.Place`).

  `launches_in_step` is both, for whatever launch was built.
-/

import Fleet.Proofs.Launch.LogFiles

namespace Fleet

/-! ## Commands -/

def Command.withValue (c : Command) (flag value : String) : Command :=
  { c with args := flatArgs ((argPairs c.args).map fun p => if p.1 = flag then (flag, value) else p) }

/-! ## Client launches -/

namespace ClientLaunch

variable (l : ClientLaunch)

/-- A slot, an invocation and a command that are those of client `i`. -/
structure Place (i : Nat) (slot : ClientSlot) (inv : ClientInvocation) (c : Command) : Prop where
  shown : slot.slot.toNat = i
  clientId : inv.clientId.toNat = i
  localPort : inv.localPort.toNat = i
  place : c.slot.toNat = i
  server : slot.targetServer = inv.targetServer
  owned : l.slice.contains slot.targetServer = true
  address : inv.serverAddr =
    l.params.serverIp ++ ":" ++ (l.params.basePort.toNat + slot.targetServer.toNat).repr
  calls : c.calls? = some (l.params.basePort.toNat + slot.targetServer.toNat)
  command : c = inv.toCommand l.params.program

/-- The record of a launch and its commands stay in step: for every target, in the sweep or
    not, they have a client at the same places, and the commands for another target are the
    same but for the `-b` value and the log. -/
structure InStep : Prop where
  slots : l.slots.length = l.topology.clientsPerVm.toNat
  invocations : ∀ target, (l.invocationsFor target).length = l.topology.clientsPerVm.toNat
  commands : ∀ target, (l.commandsFor target).length = l.topology.clientsPerVm.toNat
  place : ∀ target, ∀ i < l.topology.clientsPerVm.toNat, ∃ slot inv c,
    l.slots[i]? = some slot ∧ (l.invocationsFor target)[i]? = some inv ∧ (l.commandsFor target)[i]? = some c ∧
      l.Place i slot inv c
  target : ∀ target target', l.commandsFor target' = (l.commandsFor target).map fun c =>
    { c.withValue "-b" (toString (l.extraFor target')) with
      output := .append (LogPath.client l.params.out target' l.topology l.params.rate l.params.opt) }

theorem getElem?_clientSlots (t : Topology) (i : Nat) :
    t.clientSlots[i]? = if i < t.clientsPerVm.toNat then some (.ofNat i) else none :=
  getElem?_map_range _ _ _

theorem length_clientSlots (t : Topology) : t.clientSlots.length = t.clientsPerVm.toNat := by
  simp [Topology.clientSlots]

/-- The three lists at one place. All go over the slots of a VM, whose numbers fit because there
    are no more clients than a count can say. -/
theorem place_of_lt (hs : l.topology.slice l.vmId = .ok l.slice) (target : UInt32) {i : Nat}
    (hi : i < l.topology.clientsPerVm.toNat) :
    ∃ slot inv c, l.slots[i]? = some slot ∧ (l.invocationsFor target)[i]? = some inv ∧
      (l.commandsFor target)[i]? = some c ∧ l.Place i slot inv c := by
  have hslot : l.topology.clientSlots[i]? = some (.ofNat i) := by rw [getElem?_clientSlots, if_pos hi]
  have hnumber : (UInt32.ofNat i).toNat = i :=
    UInt32.toNat_ofNat_of_lt' (Nat.lt_trans hi l.topology.clientsPerVm.toNat_lt)
  have hinv : (l.invocationsFor target)[i]? = some (.of l.topology l.slice l.params target (.ofNat i)) := by
    rw [invocationsFor, List.getElem?_map, hslot, Option.map_some]
  have haddr : (ClientInvocation.of l.topology l.slice l.params target (.ofNat i)).serverAddr =
      l.params.serverIp ++ ":" ++ (l.params.basePort.toNat + (l.slice.clientTarget (.ofNat i)).toNat).repr := rfl
  have hc : (l.commandsFor target)[i]? =
      some ((ClientInvocation.of l.topology l.slice l.params target (.ofNat i)).toCommand l.params.program) := by
    rw [commandsFor, List.getElem?_map, hinv, Option.map_some]
  refine ⟨⟨.ofNat i, l.slice.clientTarget (.ofNat i)⟩, _, _, ?_, hinv, hc, ?_⟩
  · rw [slots, Topology.assignClients, List.getElem?_map, hslot, Option.map_some]
  · obtain ⟨hk, hid⟩ := clientTarget_eq hs (.ofNat i)
    have howned : l.slice.clientTarget (.ofNat i) ∈ l.slice.ids.toList := by
      rw [hid]
      exact List.mem_map.mpr ⟨_, List.mem_range.mpr hk, rfl⟩
    exact {
      shown := hnumber
      clientId := hnumber
      localPort := hnumber
      place := hnumber
      server := rfl
      owned := IdRange.mem_toList.mp howned
      address := haddr
      calls := ClientInvocation.calls?_toCommand _ _ haddr
      command := rfl }

theorem toCommand_target (t : Topology) (s : ServerSlice) (params : ClientParams) (target target' slot : UInt32) :
    (ClientInvocation.of t s params target' slot).toCommand params.program =
      { ((ClientInvocation.of t s params target slot).toCommand params.program).withValue "-b"
          (toString (t.extra target')) with
        output := .append (LogPath.client params.out target' t params.rate params.opt) } := by
  have hpairs : (ClientInvocation.of t s params target' slot).pairs =
      (ClientInvocation.of t s params target slot).pairs.map fun p =>
        if p.1 = "-b" then ("-b", toString (t.extra target')) else p := by
    cases hopt : params.opt <;> simp [ClientInvocation.pairs, ClientInvocation.of, optPairs, hopt]
  simp only [ClientInvocation.toCommand, Command.withValue, argPairs_flatArgs, hpairs]
  rfl

theorem commandsFor_target (target target' : UInt32) :
    l.commandsFor target' = (l.commandsFor target).map fun c =>
      { c.withValue "-b" (toString (l.extraFor target')) with
        output := .append (LogPath.client l.params.out target' l.topology l.params.rate l.params.opt) } := by
  simp only [commandsFor, invocationsFor, List.map_map]
  refine List.map_congr_left fun slot _ => ?_
  exact toCommand_target l.topology l.slice l.params target target' slot

theorem inStep (hs : l.topology.slice l.vmId = .ok l.slice) : l.InStep where
  slots := by rw [slots, Topology.assignClients, List.length_map, length_clientSlots]
  invocations target := by rw [invocationsFor, List.length_map, length_clientSlots]
  commands := l.length_commandsFor
  place target _ hi := l.place_of_lt hs target hi
  target := l.commandsFor_target

end ClientLaunch

/-! ## Server launches -/

namespace ServerLaunch

variable (l : ServerLaunch)

structure Place (i : Nat) (id : UInt32) (c : Command) : Prop where
  number : id.toNat = l.slice.firstId.toNat + i
  place : c.slot.toNat = i
  told : c.value? "-p" = some (l.slice.firstId.toNat + i).repr
  output : c.output = match l.params.out with
    | some dir => .append (LogPath.server dir.shown id l.topology l.params.rate l.params.opt)
    | none => .inherit

/-- The commands of a launch are one for every id of its slice. -/
structure InStep : Prop where
  size : l.slice.ids.toList.length = l.topology.serversPerVm.toNat
  commands : l.commands.length = l.slice.ids.toList.length
  place : ∀ (i : Nat) (id : UInt32), l.slice.ids.toList[i]? = some id →
    ∃ c, l.commands[i]? = some c ∧ l.Place i id c

theorem length_commands : l.commands.length = l.slice.ids.toList.length := by
  rw [commands, List.length_map, List.length_zipIdx, invocations, List.length_map]

theorem place_of_getElem? {i : Nat} {id : UInt32} (h : l.slice.ids.toList[i]? = some id) :
    ∃ c, l.commands[i]? = some c ∧ l.Place i id c := by
  rw [IdRange.getElem?_toList] at h
  by_cases hi : i < l.slice.ids.size
  · rw [if_pos hi] at h
    obtain rfl : l.slice.ids.first + .ofNat i = id := Option.some.inj h
    have hid : (l.slice.ids.first + UInt32.ofNat i).toNat = l.slice.firstId.toNat + i := IdRange.toNat_add_ofNat hi
    -- The place fits as well, for it is no more than the distance of two ids.
    have hfit : i < UInt32.size := by
      have hstop := l.slice.ids.stop.toNat_lt
      unfold IdRange.size at hi
      show i < 4294967296
      omega
    have hc : l.commands[i]? = some ((ServerInvocation.of l.topology l.params
        (l.slice.ids.first + .ofNat i)).toCommand (.ofNat i) l.params.program) := by
      rw [getElem?_commands, getElem?_invocations, if_pos hi, Option.map_some]
    have htold : ((ServerInvocation.of l.topology l.params (l.slice.ids.first + .ofNat i)).toCommand (.ofNat i)
        l.params.program).value? "-p" = some (l.slice.firstId.toNat + i).repr := by
      rw [ServerInvocation.value?_toCommand, ← hid]
      rfl
    exact ⟨_, hc, { number := hid, place := UInt32.toNat_ofNat_of_lt' hfit, told := htold, output := rfl }⟩
  · rw [if_neg hi] at h
    cases h

theorem inStep (hs : l.topology.slice l.vmId = .ok l.slice) : l.InStep where
  size := by rw [IdRange.length_toList, Topology.slice_size hs]
  commands := l.length_commands
  place _ _ h := l.place_of_getElem? h

end ServerLaunch

/-! ## Both -/

/-- Whatever launch is built on a VM of a topology, its record and its commands are in step:
    a client launch for every target, a server launch with logs and without. -/
theorem launches_in_step (t : Topology) (v : UInt32) :
    (∀ params targets trials l, (ClientLaunch.build t v params targets trials).result = .ok l →
      l.topology = t ∧ l.params = params ∧ l.InStep)
    ∧ ∀ params l, (ServerLaunch.build t v params).result = .ok l →
      l.topology = t ∧ l.params = params ∧ l.InStep := by
  constructor
  · intro params targets trials l built
    obtain ⟨-, s, hs, -, -, rfl⟩ := ClientLaunch.build_eq_ok_iff.mp built
    exact ⟨rfl, rfl, ClientLaunch.inStep _ hs⟩
  · intro params l built
    obtain ⟨s, hs, -, rfl⟩ := ServerLaunch.build_eq_ok_iff.mp built
    exact ⟨rfl, rfl, ServerLaunch.inStep _ hs⟩

/-- Seven servers and eleven clients on two VMs each, an address with colons in it, and a target
    that is not in the sweep: client 4 of the second VM goes round its three servers and calls
    port 7004, and the last server of the VM is told that it is server 5. -/
theorem launches_in_step_uneven :
    let t : Topology := ⟨7, 11, 2, 2, by decide, by decide, by decide, by decide⟩
    let clients : ClientParams := ⟨"client", "fe80::1", 7000, 2, .bloom, some .hybrid2, 2, 10, "logs", "-b"⟩
    let servers : ServerParams := ⟨"server", "::1", 7000, 2, .bloom, none, 1, "hosts.txt", some "logs"⟩
    ∃ l one, (ClientLaunch.build t 1 clients [100] 3).result = .ok l ∧
      (ServerLaunch.build t 1 servers).result = .ok one ∧
      (l.commandsFor 5).length = 5 ∧ (∃ c, (l.commandsFor 5)[4]? = some c ∧ c.calls? = some 7004) ∧
      one.commands.length = 3 ∧ ∃ s, one.commands[2]? = some s ∧ s.value? "-p" = some "5" := by
  intro t clients servers
  obtain ⟨client, server⟩ := launches_in_step t 1
  have slice : t.slice 1 = .ok ⟨3, 3⟩ := by decide
  have built : (ClientLaunch.build t 1 clients [100] 3).result = .ok ⟨t, 1, ⟨3, 3⟩, [100], 3, clients⟩ :=
    ClientLaunch.build_eq_ok_iff.mpr ⟨by decide, _, slice, by decide, by decide, rfl⟩
  have built' : (ServerLaunch.build t 1 servers).result = .ok ⟨t, 1, ⟨3, 3⟩, servers⟩ :=
    ServerLaunch.build_eq_ok_iff.mpr ⟨_, slice, by decide, rfl⟩
  obtain ⟨-, -, steps⟩ := client clients [100] 3 _ built
  obtain ⟨-, -, steps'⟩ := server servers _ built'
  obtain ⟨slot, inv, c, hslot, -, hc, place⟩ := steps.place 5 4 (by decide)
  obtain ⟨s, hs, place'⟩ := steps'.place 2 5 (by decide)
  have shown : (t.assignClients ⟨3, 3⟩)[4]? = some ⟨4, 4⟩ := by decide
  obtain rfl : (⟨4, 4⟩ : ClientSlot) = slot := Option.some.inj (shown.symm.trans hslot)
  refine ⟨_, _, built, built', ?_, ⟨c, hc, place.calls⟩, ?_, s, hs, place'.told.trans (by decide)⟩
  · rw [steps.commands]
    decide
  · rw [steps'.commands, steps'.size]
    decide

end Fleet

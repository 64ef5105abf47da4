/-
  Fleet.Proofs.Placement.Load — how many clients talk to a server over all client VMs, and how
  many it was told to expect.

  The slots of a client VM go round the slice that the VM was given, and every VM begins with
  the first server of the slice. So when a last round is not full, the clients in it talk to
  the servers at the front of the slice (`slotsOf_eq`), and the VMs that were given the same
  slice add up there (`load_eq`), while all servers are told the same number.

  `load_meets_capacity_iff`: where everything else divides, every server gets as many clients
  as it was told exactly if the last round of a client VM is full; and if it is not, the first
  server of every slice gets more.
-/

import Fleet.Proofs.Placement.Partition
import Fleet.Proofs.Worker.Arguments

namespace Fleet

namespace Topology

variable (t : Topology)

/-! ## Clients of a server -/

/-- How many slots of a client VM talk to a server, if the VM was given an ordinal. -/
def slotsOf (v id : UInt32) : Nat :=
  match t.slice v with
  | .ok s => (t.assignClients s).countP (·.targetServer == id)
  | .error _ => 0

/-- How many slots of all client VMs talk to a server, each of which was given an ordinal. -/
def load (ordinals : List UInt32) (id : UInt32) : Nat := (ordinals.map (t.slotsOf · id)).sum

/-- The ordinals that the client VMs are given, that of every server VM to `r` of them. -/
structure Assignment (r : Nat) where
  ordinals : List UInt32
  length_eq : ordinals.length = t.clientVms.toNat
  count_eq : ∀ v < t.serverVms, ordinals.count v = r

/-! ## One client VM -/

variable {t}

theorem targets_iff {v id : UInt32} {s : ServerSlice} (hs : t.slice v = .ok s) {k : Nat}
    (hk : k < t.clientsPerVm.toNat) : s.clientTarget (.ofNat k) = id ↔
      id.toNat / t.serversPerVm.toNat = v.toNat ∧ k ≡ id.toNat [MOD t.serversPerVm.toNat] := by
  have hpos := t.serversPerVm_pos
  have hslot : (UInt32.ofNat k).toNat = k :=
    UInt32.toNat_ofNat_of_lt' (Nat.lt_trans hk t.clientsPerVm.toNat_lt)
  have htarget := (t.exact.target v s hs).2 (.ofNat k)
  have hfirst := t.exact.firstId v s hs
  have hcount : s.count = t.serversPerVm := by
    obtain ⟨-, rfl⟩ := t.slice_eq_ok_iff.mp hs
    rfl
  rw [hslot, hcount, hfirst] at htarget
  have hmod := Nat.mod_lt k hpos
  rw [← UInt32.toNat_inj, htarget]
  constructor
  · intro h
    rw [← h]
    constructor
    · rw [Nat.mul_comm, Nat.mul_add_div hpos, Nat.div_eq_of_lt hmod, Nat.add_zero]
    · rw [Nat.ModEq, Nat.mul_comm, Nat.mul_add_mod, Nat.mod_mod]
  · rintro ⟨hdiv, hmodEq⟩
    have hid := Nat.div_add_mod id.toNat t.serversPerVm.toNat
    rw [Nat.ModEq] at hmodEq
    rw [hmodEq, ← hdiv, Nat.mul_comm]
    exact hid

/-- A client VM that was given another ordinal than that of the server's VM has no client for
    the server. One that was given this ordinal has a client in each full round, and one more
    if the last round gets as far. -/
theorem slotsOf_eq {v : UInt32} (hv : v < t.serverVms) (id : UInt32) :
    t.slotsOf v id = if id.toNat / t.serversPerVm.toNat = v.toNat then
      t.clientsPerVm.toNat / t.serversPerVm.toNat +
        if id.toNat % t.serversPerVm.toNat < t.clientsPerVm.toNat % t.serversPerVm.toNat then 1 else 0
    else 0 := by
  have hs : t.slice v = .ok _ := t.slice_eq_ok_iff.mpr ⟨hv, rfl⟩
  have hcount : t.slotsOf v id = (List.range t.clientsPerVm.toNat).countP fun k =>
      (id.toNat / t.serversPerVm.toNat = v.toNat ∧ k ≡ id.toNat [MOD t.serversPerVm.toNat]) := by
    rw [slotsOf, hs]
    simp only [assignClients, clientSlots, List.countP_map]
    refine List.countP_congr fun k hk => ?_
    simp only [Function.comp_apply, beq_iff_eq, decide_eq_true_eq]
    exact targets_iff hs (List.mem_range.mp hk)
  rw [hcount]
  split
  · rename_i hid
    simp only [hid, true_and]
    exact Nat.count_modEq_card t.clientsPerVm.toNat t.serversPerVm_pos id.toNat
  · rename_i hid
    simp [hid]

/-! ## All client VMs -/

theorem sum_map_ite_eq (c : Nat) (v : UInt32) (ordinals : List UInt32) :
    (ordinals.map fun w => if v = w then c else 0).sum = ordinals.count v * c := by
  induction ordinals with
  | nil => simp
  | cons w rest ih =>
    rw [List.map_cons, List.sum_cons, ih, List.count_cons]
    by_cases h : v = w
    · subst h
      simp only [if_true, beq_self_eq_true]
      ring
    · have h' : (w == v) = false := by
        rw [beq_eq_false_iff_ne]
        exact fun e => h e.symm
      simp [h, h']

variable {r : Nat} (a : t.Assignment r)

theorem load_eq {id : UInt32} (owned : id.toNat / t.serversPerVm.toNat < t.serverVms.toNat) :
    t.load a.ordinals id = r * (t.clientsPerVm.toNat / t.serversPerVm.toNat +
      if id.toNat % t.serversPerVm.toNat < t.clientsPerVm.toNat % t.serversPerVm.toNat then 1 else 0) := by
  obtain ⟨hv, -⟩ := t.slice_ofNat owned
  have hlt : UInt32.ofNat (id.toNat / t.serversPerVm.toNat) < t.serverVms := by
    rw [UInt32.lt_iff_toNat_lt, hv]
    exact owned
  refine .trans ?_ ((sum_map_ite_eq _ _ a.ordinals).trans (congrArg (· * _) (a.count_eq _ hlt)))
  refine congrArg List.sum (List.map_congr_left fun w _ => ?_)
  have same : UInt32.ofNat (id.toNat / t.serversPerVm.toNat) = w ↔
      id.toNat / t.serversPerVm.toNat = w.toNat := by
    rw [← UInt32.toNat_inj, hv]
  by_cases hw : w < t.serverVms
  · simp only [slotsOf_eq hw, same]
  · -- a VM with an ordinal beyond the server VMs has no slice, and starts no client
    have hslice : t.slice w = .error (.vmOutOfRange w t.serverVms) := if_pos (UInt32.not_lt.mp hw)
    have other : UInt32.ofNat (id.toNat / t.serversPerVm.toNat) ≠ w := fun e => hw (e ▸ hlt)
    rw [slotsOf, hslice, if_neg other]

/-! ## What the servers are told -/

theorem number?_capacity (t : Topology) (params : ServerParams) (id place : UInt32) :
    ((ServerInvocation.of t params id).toCommand place params.program).number? "-m" =
      some t.clientsPerServer.toNat := by
  have hm : ((ServerInvocation.of t params id).toCommand place params.program).value? "-m" =
      some t.clientsPerServer.toNat.repr := by
    rw [ServerInvocation.value?_toCommand]
    rfl
  rw [Command.number?, hm]
  exact Nat.toNat?_repr _

/-- All servers of a slice together are told as many clients as the VMs with this slice start. -/
theorem capacity_mul (servers : t.totalServers % t.serverVms = 0) (clients : t.totalClients % t.clientVms = 0)
    (shares : t.totalClients % t.totalServers = 0) (vms : t.clientVms.toNat = r * t.serverVms.toNat) :
    t.clientsPerServer.toNat * t.serversPerVm.toNat = r * t.clientsPerVm.toNat := by
  have whole {n d : UInt32} (h : n % d = 0) : n.toNat / d.toNat * d.toNat = n.toNat := by
    have h := congrArg UInt32.toNat h
    rw [UInt32.toNat_mod] at h
    exact Nat.div_mul_cancel (Nat.dvd_of_mod_eq_zero h)
  have hs := whole servers
  have hc := whole clients
  have hshare := whole shares
  rw [← toNat_serversPerVm] at hs
  rw [← toNat_clientsPerVm] at hc
  rw [← UInt32.toNat_div, ← clientsPerServer] at hshare
  apply Nat.eq_of_mul_eq_mul_right t.serverVms_pos
  calc t.clientsPerServer.toNat * t.serversPerVm.toNat * t.serverVms.toNat
      = t.clientsPerServer.toNat * t.totalServers.toNat := by rw [Nat.mul_assoc, hs]
    _ = t.clientsPerVm.toNat * t.clientVms.toNat := by rw [hshare, hc]
    _ = r * t.clientsPerVm.toNat * t.serverVms.toNat := by rw [vms]; ring

/-- One client more than the full rounds bring, from every VM, is more than a fair share. -/
theorem share_lt {share perVm perServer r : Nat} (total : share * perServer = r * perVm) (pos : 0 < r)
    (hpos : 0 < perServer) : share < r * (perVm / perServer + 1) := by
  have hlt := Nat.mod_lt perVm hpos
  have hdiv := Nat.div_add_mod perVm perServer
  refine Nat.lt_of_mul_lt_mul_right (a := perServer) ?_
  calc share * perServer = r * perVm := total
    _ < r * (perServer * (perVm / perServer) + perServer) := Nat.mul_lt_mul_of_pos_left (by omega) pos
    _ = r * (perVm / perServer + 1) * perServer := by ring

theorem firstId_front {v : UInt32} {s : ServerSlice} (hs : t.slice v = .ok s) :
    s.firstId.toNat / t.serversPerVm.toNat < t.serverVms.toNat ∧ s.firstId.toNat % t.serversPerVm.toNat = 0 := by
  have hpos := t.serversPerVm_pos
  rw [t.exact.firstId v s hs, Nat.mul_div_cancel _ hpos, Nat.mul_mod_left]
  exact ⟨UInt32.lt_iff_toNat_lt.mp (t.slice_eq_ok_iff.mp hs).1, rfl⟩

/-! ## Capacity and load -/

/-- Let the servers divide evenly over their VMs, the clients over theirs and over the servers,
    and let every ordinal be given to equally many client VMs. Then every server gets exactly
    as many clients as it is told to expect if and only if the servers of a VM divide the
    clients of a VM. If they do not, the first server of every slice gets more. -/
theorem load_meets_capacity_iff {t : Topology} {r : Nat} (servers : t.totalServers % t.serverVms = 0)
    (clients : t.totalClients % t.clientVms = 0) (shares : t.totalClients % t.totalServers = 0)
    (vms : t.clientVms.toNat = r * t.serverVms.toNat) (a : t.Assignment r) (params : ServerParams) (place : UInt32) :
    let told (id : UInt32) := ((ServerInvocation.of t params id).toCommand place params.program).number? "-m"
    ((∀ id < t.totalServers, told id = some (t.load a.ordinals id)) ↔
        t.serversPerVm.toNat ∣ t.clientsPerVm.toNat) ∧
      (¬t.serversPerVm.toNat ∣ t.clientsPerVm.toNat → ∀ v s, t.slice v = .ok s →
        ∃ capacity, told s.firstId = some capacity ∧ capacity < t.load a.ordinals s.firstId) := by
  intro told
  have hpos := t.serversPerVm_pos
  have total := capacity_mul servers clients shares vms
  have given : 0 < r := Nat.pos_of_ne_zero fun h => by
    have := t.clientVms_pos
    rw [vms, h, Nat.zero_mul] at this
    exact absurd this (Nat.lt_irrefl 0)
  have exceeds (uneven : ¬t.serversPerVm.toNat ∣ t.clientsPerVm.toNat) (v : UInt32) (s : ServerSlice)
      (hs : t.slice v = .ok s) : ∃ capacity, told s.firstId = some capacity ∧
        capacity < t.load a.ordinals s.firstId := by
    have left : 0 < t.clientsPerVm.toNat % t.serversPerVm.toNat :=
      Nat.pos_of_ne_zero fun h => uneven (Nat.dvd_of_mod_eq_zero h)
    obtain ⟨owned, front⟩ := firstId_front hs
    refine ⟨_, number?_capacity t params s.firstId place, ?_⟩
    rw [load_eq a owned, front, if_pos left]
    exact share_lt total given hpos
  refine ⟨⟨fun all => ?_, fun even id hid => ?_⟩, exceeds⟩
  · -- the first server of the first slice tells an uneven round from an even one
    by_contra uneven
    have hs : t.slice 0 = .ok _ := t.slice_eq_ok_iff.mpr ⟨UInt32.lt_iff_toNat_lt.mpr t.serverVms_pos, rfl⟩
    obtain ⟨capacity, htold, lt⟩ := exceeds uneven 0 _ hs
    rw [all _ ?_, Option.some.injEq] at htold
    · omega
    · rw [UInt32.lt_iff_toNat_lt, t.exact.firstId 0 _ hs]
      have := t.serverVms_le
      have := t.serverVms_pos
      simp only [UInt32.toNat_zero]
      omega
  · have owned : id.toNat / t.serversPerVm.toNat < t.serverVms.toNat := by
      have whole : t.serversPerVm.toNat * t.serverVms.toNat = t.totalServers.toNat := by
        have h := congrArg UInt32.toNat servers
        rw [UInt32.toNat_mod] at h
        rw [toNat_serversPerVm]
        exact Nat.div_mul_cancel (Nat.dvd_of_mod_eq_zero h)
      rw [Nat.div_lt_iff_lt_mul hpos, Nat.mul_comm, whole]
      exact UInt32.lt_iff_toNat_lt.mp hid
    have full : t.clientsPerVm.toNat % t.serversPerVm.toNat = 0 := Nat.mod_eq_zero_of_dvd even
    obtain ⟨rounds, hrounds⟩ := even
    have capacity : t.clientsPerServer.toNat = r * rounds := by
      apply Nat.eq_of_mul_eq_mul_right hpos
      rw [total, hrounds]
      ring
    show ((ServerInvocation.of t params id).toCommand place params.program).number? "-m" = _
    rw [number?_capacity, load_eq a owned, full, if_neg (Nat.not_lt_zero _), capacity, hrounds,
      Nat.mul_div_cancel_left _ hpos, Nat.add_zero]

/-- Four servers on two VMs and four clients on four: everything divides, and each client VM
    has one client, for the first of its two servers. That server was told of one client and
    gets two. -/
theorem load_meets_capacity_iff_restarted :
    let t : Topology := ⟨4, 4, 2, 4, by decide, by decide, by decide, by decide⟩
    let params : ServerParams := ⟨"server", "::1", 8000, 2, .bloom, none, 1, "hosts.txt", none⟩
    let told (id : UInt32) := ((ServerInvocation.of t params id).toCommand 0 params.program).number? "-m"
    (¬∀ id < t.totalServers, told id = some (t.load [0, 1, 1, 0] id)) ∧
      ∃ capacity, told 2 = some capacity ∧ capacity < t.load [0, 1, 1, 0] 2 := by
  intro t params told
  have twice : ∀ v < t.serverVms, [0, 1, 1, 0].count v = 2 := by
    intro v hv
    have hv : v.toNat < 2 := UInt32.lt_iff_toNat_lt.mp hv
    obtain rfl | rfl : v = 0 ∨ v = 1 := by
      rw [← UInt32.toNat_inj, ← UInt32.toNat_inj]
      simp only [UInt32.toNat_zero, UInt32.toNat_one]
      omega
    · decide
    · decide
  obtain ⟨exactly, exceeds⟩ := load_meets_capacity_iff (t := t) (r := 2) (by decide) (by decide) (by decide) (by decide)
    ⟨[0, 1, 1, 0], by decide, twice⟩ params 0
  have uneven : ¬t.serversPerVm.toNat ∣ t.clientsPerVm.toNat := by decide
  exact ⟨fun all => uneven (exactly.mp all), exceeds uneven 1 ⟨2, 2⟩ (by decide)⟩

end Topology

end Fleet

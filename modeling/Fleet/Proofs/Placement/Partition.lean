/-
  Fleet.Proofs.Placement.Partition — how a topology deals out the server ids.

  The counts are 32-bit words, and every operation on them wraps. What keeps them exact
  is what a topology carries: each role has at least one VM and at least one worker for
  each of its VMs. So a VM's share is never zero, the shares of all VMs together never
  pass the total, and no product, sum or difference of a placement leaves the word
  (`Exact`, `exact`).

  Proved, for every topology that was accepted:
  - the slices of the VMs, one behind the other and followed by the ids that no VM owns,
    are all server ids in order (`dealt_in_order`);
  - so an id below the total is in the slice of exactly one VM or among those left over,
    never both (`owner_or_leftover`);
  - all of it in one statement is `placement_partitions`.
-/

import Fleet.Placement.Slice
import Mathlib.Logic.ExistsUnique

namespace Fleet

/-! ## Ranges as lists of numbers -/

theorem getElem?_map_range {α : Type} (f : Nat → α) (n k : Nat) :
    ((List.range n).map f)[k]? = if k < n then some (f k) else none := by
  rw [List.getElem?_map]
  split
  · rename_i h; rw [List.getElem?_range h]; rfl
  · rename_i h; rw [List.getElem?_eq_none (by simpa using h)]; rfl

namespace IdRange

theorem toList_eq_range' (r : IdRange) : r.toList = (List.range' r.first.toNat r.size).map UInt32.ofNat := by
  rw [toList, List.range'_eq_map_range, List.map_map]
  apply List.map_congr_left
  intro k _
  simp [UInt32.ofNat_add]

theorem contains_iff (r : IdRange) (id : UInt32) :
    r.contains id = true ↔ r.first.toNat ≤ id.toNat ∧ id.toNat < r.stop.toNat := by
  simp only [contains, Bool.and_eq_true, decide_eq_true_eq, UInt32.le_iff_toNat_le, UInt32.lt_iff_toNat_lt]

end IdRange

/-! ## Accepted topologies -/

namespace Topology

theorem check_counts {mode : Partition} {servers clients serverVms clientVms : UInt32} {t : Topology}
    (h : check mode servers clients serverVms clientVms = .ok t) :
    t.totalServers = servers ∧ t.totalClients = clients ∧ t.serverVms = serverVms ∧ t.clientVms = clientVms := by
  unfold check at h
  repeat' split at h
  all_goals first | cases h; exact ⟨rfl, rfl, rfl, rfl⟩ | cases h

@[simp] theorem build_result (mode : Partition) (servers clients serverVms clientVms : UInt32) :
    (build mode servers clients serverVms clientVms).result = check mode servers clients serverVms clientVms := by
  unfold build
  split
  · rename_i t h; rw [h]
  · rename_i e h; rw [h]; rfl

variable (t : Topology)

/-! ## Shares -/

theorem toNat_serversPerVm : t.serversPerVm.toNat = t.totalServers.toNat / t.serverVms.toNat := UInt32.toNat_div _ _

theorem toNat_clientsPerVm : t.clientsPerVm.toNat = t.totalClients.toNat / t.clientVms.toNat := UInt32.toNat_div _ _

theorem serversPerVm_pos : 0 < t.serversPerVm.toNat := by
  rw [toNat_serversPerVm]; exact Nat.div_pos t.serverVms_le t.serverVms_pos

theorem clientsPerVm_pos : 0 < t.clientsPerVm.toNat := by
  rw [toNat_clientsPerVm]; exact Nat.div_pos t.clientVms_le t.clientVms_pos

theorem serverShares_le : t.serverVms.toNat * t.serversPerVm.toNat ≤ t.totalServers.toNat := by
  rw [toNat_serversPerVm]; exact Nat.mul_div_le _ _

theorem clientShares_le : t.clientVms.toNat * t.clientsPerVm.toNat ≤ t.totalClients.toNat := by
  rw [toNat_clientsPerVm]; exact Nat.mul_div_le _ _

theorem slice_stop_le {v : Nat} (h : v < t.serverVms.toNat) :
    v * t.serversPerVm.toNat + t.serversPerVm.toNat ≤ t.serverVms.toNat * t.serversPerVm.toNat := by
  rw [← Nat.succ_mul]; exact Nat.mul_le_mul_right _ h

/-! ## No operation leaves the word -/

theorem toNat_serverShares :
    (t.serversPerVm * t.serverVms).toNat = t.serverVms.toNat * t.serversPerVm.toNat := by
  rw [UInt32.toNat_mul, Nat.mul_comm]
  exact Nat.mod_eq_of_lt (Nat.lt_of_le_of_lt t.serverShares_le t.totalServers.toNat_lt)

theorem toNat_clientShares :
    (t.clientsPerVm * t.clientVms).toNat = t.clientVms.toNat * t.clientsPerVm.toNat := by
  rw [UInt32.toNat_mul, Nat.mul_comm]
  exact Nat.mod_eq_of_lt (Nat.lt_of_le_of_lt t.clientShares_le t.totalClients.toNat_lt)

theorem toNat_unassignedClients :
    t.unassignedClients.toNat = t.totalClients.toNat - t.clientVms.toNat * t.clientsPerVm.toNat := by
  have hle : t.clientsPerVm * t.clientVms ≤ t.totalClients := by
    rw [UInt32.le_iff_toNat_le, toNat_clientShares]; exact t.clientShares_le
  rw [unassignedClients, UInt32.toNat_sub_of_le _ _ hle, toNat_clientShares]

theorem toNat_firstId {v : UInt32} (h : v < t.serverVms) :
    (v * t.serversPerVm).toNat = v.toNat * t.serversPerVm.toNat := by
  have hstop := t.slice_stop_le (UInt32.lt_iff_toNat_lt.mp h)
  have hshares := t.serverShares_le
  have hlt := t.totalServers.toNat_lt
  rw [UInt32.toNat_mul]
  exact Nat.mod_eq_of_lt (by omega)

theorem toNat_firstId_add {v k : UInt32} (h : v < t.serverVms) (hk : k.toNat ≤ t.serversPerVm.toNat) :
    (v * t.serversPerVm + k).toNat = v.toNat * t.serversPerVm.toNat + k.toNat := by
  have hstop := t.slice_stop_le (UInt32.lt_iff_toNat_lt.mp h)
  have hshares := t.serverShares_le
  have hlt := t.totalServers.toNat_lt
  rw [UInt32.toNat_add, t.toNat_firstId h]
  exact Nat.mod_eq_of_lt (by omega)

theorem ne_zero_of_toNat_pos {n : UInt32} (h : 0 < n.toNat) : n ≠ 0 := by
  rintro rfl; exact absurd h (by decide)

theorem toNat_sub_one {n : UInt32} (h : 0 < n.toNat) : (n - 1).toNat + 1 = n.toNat := by
  have hle : (1 : UInt32) ≤ n := UInt32.le_iff_toNat_le.mpr (by rw [UInt32.toNat_one]; exact h)
  rw [UInt32.toNat_sub_of_le _ _ hle, UInt32.toNat_one]
  exact Nat.sub_add_cancel h

/-! ## Slices -/

theorem slice_eq_ok_iff {v : UInt32} {s : ServerSlice} :
    t.slice v = .ok s ↔ v < t.serverVms ∧ s = ⟨v * t.serversPerVm, t.serversPerVm⟩ := by
  unfold slice
  split
  · rename_i h
    simp only [reduceCtorEq, false_iff, not_and]
    intro hlt
    exact absurd hlt (UInt32.not_lt.mpr h)
  · rename_i h
    simp only [Except.ok.injEq, UInt32.not_le.mp h, true_and]
    exact eq_comm

variable {t}

/-- The ids of a slice as numbers: a share of them, behind the shares of the VMs before. -/
theorem slice_bounds {v : UInt32} {s : ServerSlice} (h : t.slice v = .ok s) :
    s.ids.first.toNat = v.toNat * t.serversPerVm.toNat ∧
      s.ids.stop.toNat = v.toNat * t.serversPerVm.toNat + t.serversPerVm.toNat := by
  obtain ⟨hv, rfl⟩ := t.slice_eq_ok_iff.mp h
  exact ⟨t.toNat_firstId hv, t.toNat_firstId_add hv (Nat.le_refl _)⟩

theorem slice_size {v : UInt32} {s : ServerSlice} (h : t.slice v = .ok s) : s.ids.size = t.serversPerVm.toNat := by
  obtain ⟨h₁, h₂⟩ := slice_bounds h
  rw [IdRange.size, h₁, h₂]; omega

theorem slice_nonempty {v : UInt32} {s : ServerSlice} (h : t.slice v = .ok s) : s.ids.isEmpty = false := by
  have hpos := t.serversPerVm_pos
  have hsize := slice_size h
  rw [← Bool.not_eq_true, IdRange.isEmpty_iff]
  omega

variable (t)

/-! ## What the 32-bit operations come to -/

/-- The 32-bit operations of a placement give the numbers they stand for: none of them
    divides by zero, passes the end of the word or goes below zero. -/
structure Exact : Prop where
  divisors : t.serverVms ≠ 0 ∧ t.clientVms ≠ 0 ∧ t.totalServers ≠ 0 ∧ t.serversPerVm ≠ 0
  serverShares : t.unassignedServerIds.first.toNat = t.serversPerVm.toNat * t.serverVms.toNat
  clientShares : (t.clientsPerVm * t.clientVms).toNat = t.clientsPerVm.toNat * t.clientVms.toNat
  clientsLeft : t.unassignedClients.toNat + (t.clientsPerVm * t.clientVms).toNat = t.totalClients.toNat
  lastSlot : (t.clientsPerVm - 1).toNat + 1 = t.clientsPerVm.toNat
  firstId : ∀ v s, t.slice v = .ok s → s.firstId.toNat = v.toNat * t.serversPerVm.toNat
  stop : ∀ v s, t.slice v = .ok s → s.ids.stop.toNat = s.firstId.toNat + s.count.toNat
  lastId : ∀ v s, t.slice v = .ok s → (s.ids.stop - 1).toNat + 1 = s.ids.stop.toNat
  target : ∀ v s, t.slice v = .ok s → s.count ≠ 0 ∧
    ∀ slot : UInt32, (s.clientTarget slot).toNat = s.firstId.toNat + slot.toNat % s.count.toNat

theorem exact : t.Exact where
  divisors :=
    ⟨ne_zero_of_toNat_pos t.serverVms_pos, ne_zero_of_toNat_pos t.clientVms_pos,
      ne_zero_of_toNat_pos (Nat.lt_of_lt_of_le t.serverVms_pos t.serverVms_le),
      ne_zero_of_toNat_pos t.serversPerVm_pos⟩
  serverShares := by rw [unassignedServerIds, toNat_serverShares, Nat.mul_comm]
  clientShares := by rw [toNat_clientShares, Nat.mul_comm]
  clientsLeft := by
    rw [toNat_unassignedClients, toNat_clientShares]
    exact Nat.sub_add_cancel t.clientShares_le
  lastSlot := toNat_sub_one t.clientsPerVm_pos
  firstId _ _ h := (slice_bounds h).1
  stop v s h := by
    obtain ⟨h₁, h₂⟩ := slice_bounds h
    obtain ⟨-, rfl⟩ := t.slice_eq_ok_iff.mp h
    rw [h₂, ← h₁]; rfl
  lastId _ _ h := by
    have hpos := t.serversPerVm_pos
    apply toNat_sub_one
    rw [(slice_bounds h).2]; omega
  target v s h := by
    obtain ⟨hv, rfl⟩ := t.slice_eq_ok_iff.mp h
    refine ⟨ne_zero_of_toNat_pos t.serversPerVm_pos, fun slot => ?_⟩
    have hmod : (slot % t.serversPerVm).toNat ≤ t.serversPerVm.toNat := by
      rw [UInt32.toNat_mod]; exact Nat.le_of_lt (Nat.mod_lt _ t.serversPerVm_pos)
    rw [ServerSlice.clientTarget, t.toNat_firstId_add hv hmod, t.toNat_firstId hv, UInt32.toNat_mod]

/-! ## All ids in order -/

def idsOf (v : Nat) : List UInt32 :=
  match t.slice (.ofNat v) with
  | .ok s => s.ids.toList
  | .error _ => []

theorem slice_ofNat {v : Nat} (h : v < t.serverVms.toNat) :
    (UInt32.ofNat v).toNat = v ∧ ∃ s, t.slice (.ofNat v) = .ok s := by
  have hv : (UInt32.ofNat v).toNat = v := UInt32.toNat_ofNat_of_lt' (Nat.lt_trans h t.serverVms.toNat_lt)
  refine ⟨hv, _, t.slice_eq_ok_iff.mpr ⟨?_, rfl⟩⟩
  rw [UInt32.lt_iff_toNat_lt, hv]; exact h

theorem idsOf_eq {v : Nat} (h : v < t.serverVms.toNat) :
    t.idsOf v = (List.range' (v * t.serversPerVm.toNat) t.serversPerVm.toNat).map UInt32.ofNat := by
  obtain ⟨hv, s, hs⟩ := t.slice_ofNat h
  rw [idsOf, hs]
  simp only [IdRange.toList_eq_range', slice_size hs, (slice_bounds hs).1, hv]

theorem flatMap_idsOf {n : Nat} (h : n ≤ t.serverVms.toNat) :
    (List.range n).flatMap t.idsOf = (List.range' 0 (n * t.serversPerVm.toNat)).map UInt32.ofNat := by
  induction n with
  | zero => simp
  | succ n ih =>
    rw [List.range_succ, List.flatMap_append, ih (by omega), List.flatMap_cons, List.flatMap_nil, List.append_nil,
      t.idsOf_eq (by omega), ← List.map_append, Nat.succ_mul, ← List.range'_append_1]
    simp

theorem unassigned_toList : t.unassignedServerIds.toList =
    (List.range' (t.serverVms.toNat * t.serversPerVm.toNat)
      (t.totalServers.toNat - t.serverVms.toNat * t.serversPerVm.toNat)).map UInt32.ofNat := by
  rw [IdRange.toList_eq_range', IdRange.size, unassignedServerIds]
  simp only [toNat_serverShares]

theorem dealt_in_order : (List.range t.serverVms.toNat).flatMap t.idsOf ++ t.unassignedServerIds.toList =
    (List.range t.totalServers.toNat).map UInt32.ofNat := by
  have hle := t.serverShares_le
  rw [t.flatMap_idsOf (Nat.le_refl _), unassigned_toList, ← List.map_append]
  congr 1
  calc List.range' 0 (t.serverVms.toNat * t.serversPerVm.toNat) ++
        List.range' (t.serverVms.toNat * t.serversPerVm.toNat)
          (t.totalServers.toNat - t.serverVms.toNat * t.serversPerVm.toNat)
      = List.range' 0 (t.serverVms.toNat * t.serversPerVm.toNat +
          (t.totalServers.toNat - t.serverVms.toNat * t.serversPerVm.toNat)) := by
        rw [← List.range'_append_1, Nat.zero_add]
    _ = List.range t.totalServers.toNat := by rw [Nat.add_sub_cancel' hle, List.range_eq_range']

/-! ## One owner or none -/

def Owns (v id : UInt32) : Prop := ∃ s, t.slice v = .ok s ∧ s.contains id = true

theorem owns_iff (v id : UInt32) : t.Owns v id ↔ v < t.serverVms ∧ id.toNat / t.serversPerVm.toNat = v.toNat := by
  have hpos := t.serversPerVm_pos
  constructor
  · rintro ⟨s, hs, hid⟩
    obtain ⟨h₁, h₂⟩ := slice_bounds hs
    rw [ServerSlice.contains, IdRange.contains_iff, h₁, h₂] at hid
    refine ⟨(t.slice_eq_ok_iff.mp hs).1, Nat.div_eq_of_lt_le hid.1 ?_⟩
    rw [Nat.succ_mul]; exact hid.2
  · rintro ⟨hv, hid⟩
    have hs : t.slice v = .ok ⟨v * t.serversPerVm, t.serversPerVm⟩ := t.slice_eq_ok_iff.mpr ⟨hv, rfl⟩
    obtain ⟨h₁, h₂⟩ := slice_bounds hs
    refine ⟨_, hs, ?_⟩
    rw [ServerSlice.contains, IdRange.contains_iff, h₁, h₂, ← hid]
    exact ⟨Nat.div_mul_le_self _ _, Nat.lt_div_mul_add hpos⟩

theorem leftover_iff {id : UInt32} (h : id < t.totalServers) :
    t.unassignedServerIds.contains id = true ↔ t.serverVms.toNat ≤ id.toNat / t.serversPerVm.toNat := by
  rw [IdRange.contains_iff, unassignedServerIds, toNat_serverShares, Nat.le_div_iff_mul_le t.serversPerVm_pos]
  exact and_iff_left (UInt32.lt_iff_toNat_lt.mp h)

/-- A server id is owned by exactly one VM or left over, and never both. -/
theorem owner_or_leftover {id : UInt32} (h : id < t.totalServers) :
    ((∃! v, t.Owns v id) ∧ t.unassignedServerIds.contains id = false) ∨
      ((∀ v, ¬ t.Owns v id) ∧ t.unassignedServerIds.contains id = true) := by
  by_cases hq : id.toNat / t.serversPerVm.toNat < t.serverVms.toNat
  · left
    have hv := (t.slice_ofNat hq).1
    refine ⟨⟨.ofNat (id.toNat / t.serversPerVm.toNat), ?_, ?_⟩, ?_⟩
    · exact (t.owns_iff _ _).mpr ⟨by rw [UInt32.lt_iff_toNat_lt, hv]; exact hq, hv.symm⟩
    · intro w hw
      rw [((t.owns_iff w id).mp hw).2, UInt32.ofNat_toNat]
    · rw [← Bool.not_eq_true, t.leftover_iff h]; omega
  · right
    refine ⟨fun v hv => ?_, (t.leftover_iff h).mpr (by omega)⟩
    obtain ⟨hlt, hdiv⟩ := (t.owns_iff v id).mp hv
    rw [UInt32.lt_iff_toNat_lt] at hlt
    omega

/-! ## Leftovers -/

theorem size_unassigned : t.unassignedServerIds.size = t.totalServers.toNat % t.serverVms.toNat := by
  rw [IdRange.size, unassignedServerIds, toNat_serverShares, toNat_serversPerVm, Nat.mod_eq_sub_mul_div]

theorem unassignedClients_eq : t.unassignedClients.toNat = t.totalClients.toNat % t.clientVms.toNat := by
  rw [toNat_unassignedClients, toNat_clientsPerVm, Nat.mod_eq_sub_mul_div]

/-! ## The whole of it -/

/-- Whatever counts are accepted: each VM has a slice, and none is empty; the slices in
    order and the leftover ids behind them are all ids from 0 up; each id has one owner or
    is left over; the clients of all VMs and the leftover clients are all clients; and no
    32-bit operation on the way goes wrong. -/
theorem placement_partitions {mode : Partition} {servers clients serverVms clientVms : UInt32} {t : Topology}
    (accepted : (build mode servers clients serverVms clientVms).result = .ok t) :
    (∀ v < serverVms, ∃ s, t.slice v = .ok s ∧ s.ids.isEmpty = false) ∧
      (List.range serverVms.toNat).flatMap t.idsOf ++ t.unassignedServerIds.toList =
        (List.range servers.toNat).map UInt32.ofNat ∧
      (∀ id < servers,
        ((∃! v, t.Owns v id) ∧ t.unassignedServerIds.contains id = false) ∨
          ((∀ v, ¬ t.Owns v id) ∧ t.unassignedServerIds.contains id = true)) ∧
      t.unassignedServerIds.toList.length = servers.toNat % serverVms.toNat ∧
      clientVms.toNat * t.clientsPerVm.toNat + t.unassignedClients.toNat = clients.toNat ∧
      t.unassignedClients < clientVms ∧
      t.Exact := by
  rw [build_result] at accepted
  obtain ⟨rfl, rfl, rfl, rfl⟩ := check_counts accepted
  refine ⟨fun v hv => ?_, t.dealt_in_order, fun id hid => t.owner_or_leftover hid, ?_, ?_, ?_, t.exact⟩
  · have hs : t.slice v = .ok _ := t.slice_eq_ok_iff.mpr ⟨hv, rfl⟩
    exact ⟨_, hs, slice_nonempty hs⟩
  · rw [IdRange.length_toList, size_unassigned]
  · rw [toNat_unassignedClients]
    exact Nat.add_sub_cancel' t.clientShares_le
  · rw [UInt32.lt_iff_toNat_lt, unassignedClients_eq]
    exact Nat.mod_lt _ t.clientVms_pos

/-- The largest counts there are, over seven VMs and over two: three ids and one client
    are left over. -/
theorem placement_partitions_largest :
    ∃ t, (build .truncate 4294967295 4294967295 7 2).result = .ok t ∧
      (List.range (7 : UInt32).toNat).flatMap t.idsOf ++ t.unassignedServerIds.toList =
        (List.range (4294967295 : UInt32).toNat).map UInt32.ofNat ∧
      t.unassignedServerIds.toList.length = 3 ∧ 2 * t.clientsPerVm.toNat + t.unassignedClients.toNat = 4294967295 ∧
      t.Exact := by
  let t : Topology := ⟨4294967295, 4294967295, 7, 2, by decide, by decide, by decide, by decide⟩
  have accepted : (build .truncate 4294967295 4294967295 7 2).result = .ok t := by rfl
  obtain ⟨-, order, -, left, clients, -, ops⟩ := placement_partitions accepted
  exact ⟨t, accepted, order, left, clients, ops⟩

end Topology

end Fleet

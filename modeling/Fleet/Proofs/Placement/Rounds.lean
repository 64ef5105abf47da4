/-
  Fleet.Proofs.Placement.Rounds — how the slots of one client VM are dealt out over its slice.

  A slot's number modulo the size of the slice is its place in the slice, so the slots go round
  and a place gets one slot in each full round; a last round that is not full gets as far as it
  has slots (`loadAt_eq`). Counted from one place on, what is left of the slots is shared by
  rounds that begin at this place, the last of them perhaps not full: hence the rounded-up
  quotient (`ceilDiv_eq`).

  `slots_dealt_evenly`: every slot is dealt out once, to a server of the slice; each server gets
  its rounded-up share of the slots from its place on, so no two servers differ by more than
  one, and none gets fewer than those behind it.
-/

import Fleet.Proofs.Placement.Load
import Mathlib.Algebra.Order.Floor.Div

namespace Fleet.Topology

def loadAt (t : Topology) (s : ServerSlice) (place : Nat) : Nat :=
  (t.assignClients s).countP fun c => c.targetServer.toNat == s.firstId.toNat + place

/-! ## One place -/

variable {t : Topology} {v : UInt32} {s : ServerSlice}

theorem place_of_slice (hs : t.slice v = .ok s) {k : Nat} (hk : k < t.serversPerVm.toNat) :
    (s.firstId + UInt32.ofNat k).toNat = s.firstId.toNat + k :=
  IdRange.toNat_add_ofNat (r := s.ids) (by rwa [slice_size hs])

theorem loadAt_eq (hs : t.slice v = .ok s) {k : Nat} (hk : k < t.serversPerVm.toNat) :
    t.loadAt s k = t.clientsPerVm.toNat / t.serversPerVm.toNat +
      if k < t.clientsPerVm.toNat % t.serversPerVm.toNat then 1 else 0 := by
  have hid := place_of_slice hs hk
  have hload : t.loadAt s k = t.slotsOf v (s.firstId + UInt32.ofNat k) := by
    rw [slotsOf, hs, loadAt]
    refine List.countP_congr fun c _ => ?_
    rw [beq_iff_eq, beq_iff_eq, ← hid, UInt32.toNat_inj]
  rw [hload, slotsOf_eq (t.slice_eq_ok_iff.mp hs).1, hid, t.exact.firstId v s hs]
  have hdiv : (v.toNat * t.serversPerVm.toNat + k) / t.serversPerVm.toNat = v.toNat := by
    rw [Nat.mul_comm, Nat.mul_add_div t.serversPerVm_pos, Nat.div_eq_of_lt hk, Nat.add_zero]
  have hmod : (v.toNat * t.serversPerVm.toNat + k) % t.serversPerVm.toNat = k := by
    rw [Nat.mul_comm, Nat.mul_add_mod, Nat.mod_eq_of_lt hk]
  rw [if_pos hdiv, hmod]

/-- The rounds that reach a place are those that begin at it, the last of them perhaps not
    full. -/
theorem ceilDiv_eq (n : Nat) {d k : Nat} (hk : k < d) : (n - k) ⌈/⌉ d = n / d + if k < n % d then 1 else 0 := by
  have pos : 0 < d := Nat.zero_lt_of_lt hk
  have hn := Nat.div_add_mod n d
  have hr := Nat.mod_lt n pos
  generalize n / d = q at hn ⊢
  generalize n % d = r at hn hr ⊢
  rw [Nat.ceilDiv_eq_add_pred_div]
  split
  · have reached : n - k + d - 1 = d * (q + 1) + (r - k - 1) := by
      rw [Nat.mul_succ]
      omega
    rw [reached, Nat.mul_add_div pos, Nat.div_eq_of_lt (by omega), Nat.add_zero]
  · cases q with
    | zero =>
      -- there is no full round, and the only one ends before the place
      rw [Nat.div_eq_of_lt (by omega)]
    | succ q =>
      have missed : n - k + d - 1 = d * (q + 1) + (r + d - 1 - k) := by
        rw [Nat.mul_succ] at hn ⊢
        omega
      rw [missed, Nat.mul_add_div pos, Nat.div_eq_of_lt (by omega)]

/-! ## The whole slice -/

theorem map_toNat_clientSlots (t : Topology) : t.clientSlots.map UInt32.toNat = List.range t.clientsPerVm.toNat := by
  rw [clientSlots, List.map_map]
  refine (List.map_congr_left fun k hk => ?_).trans (List.map_id _)
  exact UInt32.toNat_ofNat_of_lt' (Nat.lt_trans (List.mem_range.mp hk) t.clientsPerVm.toNat_lt)

/-- A place in full rounds, and one more for each slot of the last. -/
theorem sum_places (n : Nat) {d : Nat} (pos : 0 < d) :
    ∑ k ∈ Finset.range d, (n / d + if k < n % d then 1 else 0) = n := by
  have last : (Finset.range d).filter (· < n % d) = Finset.range (n % d) := by
    ext k
    have hr := Nat.mod_lt n pos
    simp only [Finset.mem_filter, Finset.mem_range]
    omega
  rw [Finset.sum_add_distrib, Finset.sum_const, Finset.card_range, smul_eq_mul, Finset.sum_boole, last,
    Finset.card_range]
  exact Nat.div_add_mod n d

structure DealtEvenly (t : Topology) (s : ServerSlice) : Prop where
  slots : (t.assignClients s).map (·.slot.toNat) = List.range t.clientsPerVm.toNat
  inSlice : ∀ c ∈ t.assignClients s, s.contains c.targetServer = true
  /-- From its place on, a server gets every slot that a round brings it. -/
  share : ∀ k < t.serversPerVm.toNat, t.loadAt s k = (t.clientsPerVm.toNat - k) ⌈/⌉ t.serversPerVm.toNat
  idle : ∀ k < t.serversPerVm.toNat, t.clientsPerVm.toNat ≤ k → t.loadAt s k = 0
  even : ∀ j k, j ≤ k → k < t.serversPerVm.toNat → t.loadAt s k ≤ t.loadAt s j ∧ t.loadAt s j ≤ t.loadAt s k + 1
  total : ∑ k ∈ Finset.range t.serversPerVm.toNat, t.loadAt s k = t.clientsPerVm.toNat

/-- Whatever the topology and whichever VM's slice a client VM was given, its slots are dealt out
    evenly over it. -/
theorem slots_dealt_evenly {t : Topology} {v : UInt32} {s : ServerSlice} (hs : t.slice v = .ok s) :
    t.DealtEvenly s where
  slots := by
    rw [← map_toNat_clientSlots, assignClients, List.map_map]
    rfl
  inSlice c hc := by
    obtain ⟨slot, -, rfl⟩ := List.mem_map.mp hc
    have target := (t.exact.target v s hs).2 slot
    have stop := t.exact.stop v s hs
    have place : slot.toNat % s.count.toNat < s.count.toNat := by
      obtain ⟨-, rfl⟩ := t.slice_eq_ok_iff.mp hs
      exact Nat.mod_lt _ t.serversPerVm_pos
    rw [ServerSlice.contains, IdRange.contains_iff, target, stop]
    exact ⟨Nat.le_add_right _ _, Nat.add_lt_add_left place _⟩
  share k hk := by rw [loadAt_eq hs hk, ceilDiv_eq _ hk]
  idle k hk beyond := by
    rw [loadAt_eq hs hk, ← ceilDiv_eq _ hk, Nat.sub_eq_zero_of_le beyond, zero_ceilDiv]
  even j k hjk hk := by
    rw [loadAt_eq hs hk, loadAt_eq hs (Nat.lt_of_le_of_lt hjk hk)]
    split <;> split <;> omega
  total := by
    rw [Finset.sum_congr rfl fun k hk => loadAt_eq hs (Finset.mem_range.mp hk)]
    exact sum_places _ t.serversPerVm_pos

/-- The three servers with the highest ids that there can be, and seven clients: the first of the
    three gets three of them. -/
theorem slots_dealt_evenly_highest :
    let t : Topology := ⟨4294967295, 7, 1431655765, 1, by decide, by decide, by decide, by decide⟩
    let s : ServerSlice := ⟨4294967292, 3⟩
    t.slice 1431655764 = .ok s ∧ t.DealtEvenly s ∧ t.loadAt s 0 = 3 ∧ t.loadAt s 1 = 2 ∧ t.loadAt s 2 = 2 := by
  intro t s
  have hs : t.slice 1431655764 = .ok s := by decide
  have dealt := slots_dealt_evenly hs
  exact ⟨hs, dealt, (dealt.share 0 (by decide)).trans (by decide), (dealt.share 1 (by decide)).trans (by decide),
    (dealt.share 2 (by decide)).trans (by decide)⟩

end Fleet.Topology

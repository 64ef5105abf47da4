/-
  Fleet.Proofs.Launch.Runs — the points of a sweep by number. A sweep looks its points up
  one at a time (`ClientLaunch.runAt?`); they are those of the list of all of them
  (`getElem?_runs`): the targets in order, and inside each its trials.
-/

import Fleet.Proofs.Launch.Building

namespace Fleet.ClientLaunch

variable (l : ClientLaunch)

theorem getElem?_runsFor (target : UInt32) (k : Nat) :
    (l.runsFor target)[k]? = if k < l.trials.toNat then some ⟨target, .ofNat k⟩ else none :=
  getElem?_map_range _ _ _

theorem length_runsFor (target : UInt32) : (l.runsFor target).length = l.trials.toNat := by simp [runsFor]

theorem length_runs : l.runs.length = l.runCount := by
  rw [runs, runCount, List.length_flatMap]
  simp only [length_runsFor, List.map_const', List.sum_replicate_nat]

theorem getElem?_runs (pos : 0 < l.trials.toNat) (k : Nat) : l.runs[k]? = l.runAt? k := by
  unfold runs runAt?
  induction l.targets generalizing k with
  | nil => simp
  | cons target rest ih =>
    rw [List.flatMap_cons, List.getElem?_append, length_runsFor]
    split
    · rename_i lt
      rw [getElem?_runsFor, if_pos lt, Nat.div_eq_of_lt lt, Nat.mod_eq_of_lt lt]
      rfl
    · rename_i ge
      obtain ⟨j, rfl⟩ : ∃ j, k = j + l.trials.toNat := ⟨k - l.trials.toNat, by omega⟩
      rw [Nat.add_sub_cancel, ih, Nat.add_div_right _ pos, Nat.add_mod_right]
      rfl

theorem getElem?_runs_of_lt {i j : Nat} {target : UInt32} (hi : l.targets[i]? = some target)
    (hj : j < l.trials.toNat) : l.runs[i * l.trials.toNat + j]? = some ⟨target, .ofNat j⟩ := by
  have pos : 0 < l.trials.toNat := by omega
  rw [getElem?_runs l pos, runAt?, Nat.add_comm, Nat.add_mul_div_right _ _ pos, Nat.add_mul_mod_self_right,
    Nat.div_eq_of_lt hj, Nat.mod_eq_of_lt hj, Nat.zero_add, hi]
  rfl

theorem map_slot_commandsFor (target : UInt32) : (l.commandsFor target).map (·.slot) = l.topology.clientSlots := by
  rw [commandsFor, invocationsFor, List.map_map, List.map_map]
  exact List.map_id _

theorem length_commandsFor (target : UInt32) : (l.commandsFor target).length = l.topology.clientsPerVm.toNat := by
  simpa [Topology.clientSlots] using congrArg List.length (l.map_slot_commandsFor target)

theorem commandsFor_ne_nil (target : UInt32) : l.commandsFor target ≠ [] := by
  have clients := l.topology.clientsPerVm_pos
  rw [← l.length_commandsFor target] at clients
  exact List.length_pos_iff.mp clients

variable {l}

theorem points_of_built {t : Topology} {v : UInt32} {params : ClientParams} {targets : List UInt32} {trials : UInt32}
    (built : (build t v params targets trials).result = .ok l) : 0 < l.trials.toNat ∧ 0 < l.runCount := by
  obtain ⟨sweep, s, -, -, -, rfl⟩ := build_eq_ok_iff.mp built
  obtain ⟨ht, hn, -⟩ := checkSweep_eq_ok_iff.mp sweep
  have pos : 0 < trials.toNat := Nat.pos_of_ne_zero fun e => hn (UInt32.toNat_inj.mp e)
  exact ⟨pos, Nat.mul_pos (List.length_pos_iff.mpr ht) pos⟩

end Fleet.ClientLaunch

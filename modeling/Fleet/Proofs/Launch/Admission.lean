/-
  Fleet.Proofs.Launch.Admission — on which server VMs an experiment is accepted.

  A server VM judges an experiment by its own slice and nothing else: it looks for its slice
  and then at the port of the last server in it (`build_of_slice`). The slices lie one behind
  the other, so the last ports grow with the ordinals (`portsEnd_mono`), and which VMs accept
  is a matter of how far up the ports still exist.

  `admitted_up_to`: whoever accepts, all VMs of lower ordinals accept too; the last VM speaks
  for all of them and the first VM for none. Nothing better can be said: near the highest
  port the first VM accepts what the second refuses (`admitted_on_half_the_fleet`).
-/

import Fleet.Proofs.Launch.Building

namespace Fleet.ServerLaunch

/-! ## One VM -/

/-- The server VM with an ordinal accepts an experiment. -/
def Admits (t : Topology) (params : ServerParams) (v : UInt32) : Prop := ∃ l, (build t v params).result = .ok l

/-- The first number behind the ports of the servers of a VM. -/
def portsEnd (t : Topology) (base : UInt16) (v : UInt32) : Nat :=
  base.toNat + (v.toNat + 1) * t.serversPerVm.toNat

theorem portsEnd_mono {t : Topology} {base : UInt16} {v w : UInt32} (le : w ≤ v) :
    portsEnd t base w ≤ portsEnd t base v := by
  have le : w.toNat + 1 ≤ v.toNat + 1 := Nat.succ_le_succ (UInt32.le_iff_toNat_le.mp le)
  exact Nat.add_le_add_left (Nat.mul_le_mul_right _ le) _

theorem lastServerPort_add_one {t : Topology} {v : UInt32} {s : ServerSlice} (base : UInt16)
    (hs : t.slice v = .ok s) : lastServerPort base s + 1 = portsEnd t base v := by
  have hlast := t.exact.lastId v s hs
  have hstop := (Topology.slice_bounds hs).2
  unfold lastServerPort workerPort portsEnd
  rw [Nat.succ_mul]
  omega

/-- Once the slice is known, a launch hangs on its last port alone. -/
theorem build_of_slice {t : Topology} {v : UInt32} {s : ServerSlice} (params : ServerParams)
    (hs : t.slice v = .ok s) : (build t v params).result =
      (checkPort .server (lastServerPort params.basePort s)).map fun _ => ⟨t, v, s, params⟩ := by
  cases hp : checkPort .server (lastServerPort params.basePort s) with
  | ok u =>
    exact build_eq_ok_iff.mpr ⟨s, hs, checkPort_eq_ok_iff.mp hp, rfl⟩
  | error e =>
    show (Logged.bind (sliceFor t v) _).result = .error e
    rw [Logged.bind, sliceFor_eq_ok_iff.mpr hs]
    show (Logged.bind (Logged.ofExcept (checkPort _ _)) _).result = .error e
    rw [Logged.bind, Logged.ofExcept_result, hp]

theorem admits_iff {t : Topology} {params : ServerParams} {v : UInt32} :
    Admits t params v ↔ v < t.serverVms ∧ portsEnd t params.basePort v ≤ maxPort + 1 := by
  constructor
  · rintro ⟨l, hl⟩
    obtain ⟨s, hs, hp, -⟩ := build_eq_ok_iff.mp hl
    refine ⟨(t.slice_eq_ok_iff.mp hs).1, ?_⟩
    rw [← lastServerPort_add_one params.basePort hs]
    exact Nat.succ_le_succ hp
  · rintro ⟨hv, hp⟩
    have hs : t.slice v = .ok _ := t.slice_eq_ok_iff.mpr ⟨hv, rfl⟩
    rw [← lastServerPort_add_one params.basePort hs] at hp
    exact ⟨_, build_eq_ok_iff.mpr ⟨_, hs, Nat.le_of_succ_le_succ hp, rfl⟩⟩

theorem build_of_not_admits {t : Topology} {params : ServerParams} {v : UInt32} (hv : v < t.serverVms)
    (refused : ¬Admits t params v) :
    (build t v params).result = .error (.portOutOfRange .server (portsEnd t params.basePort v - 1)) := by
  have hs : t.slice v = .ok _ := t.slice_eq_ok_iff.mpr ⟨hv, rfl⟩
  have hend := lastServerPort_add_one params.basePort hs
  have beyond : maxPort < lastServerPort params.basePort ⟨v * t.serversPerVm, t.serversPerVm⟩ := by
    refine Nat.lt_of_not_le fun le => refused (admits_iff.mpr ⟨hv, ?_⟩)
    omega
  rw [build_of_slice params hs, checkPort, if_pos beyond, ← hend]
  rfl

/-! ## All VMs -/

/-- An experiment that a server VM accepts is accepted on every VM up to that one. A VM
    accepts exactly if its last port exists, and else refuses with that port. So the last VM
    accepts only what all accept, and the first refuses only what all refuse. -/
theorem admitted_up_to (t : Topology) (params : ServerParams) :
    (∀ v w, w ≤ v → Admits t params v → Admits t params w) ∧
      (∀ v < t.serverVms,
        (Admits t params v ↔ portsEnd t params.basePort v - 1 ≤ maxPort) ∧
          (¬Admits t params v →
            (build t v params).result = .error (.portOutOfRange .server (portsEnd t params.basePort v - 1)))) ∧
      ((∀ v < t.serverVms, Admits t params v) ↔ Admits t params (t.serverVms - 1)) ∧
      ((∀ v < t.serverVms, ¬Admits t params v) ↔ ¬Admits t params 0) := by
  have down (v w : UInt32) (le : w ≤ v) (hv : Admits t params v) : Admits t params w := by
    obtain ⟨hlt, hp⟩ := admits_iff.mp hv
    exact admits_iff.mpr ⟨UInt32.lt_of_le_of_lt le hlt, Nat.le_trans (portsEnd_mono le) hp⟩
  have pos := t.serverVms_pos
  have hlast := Topology.toNat_sub_one pos
  refine ⟨down, fun v hv => ⟨?_, build_of_not_admits hv⟩, ⟨fun all => all _ ?_, fun last v hv => ?_⟩,
    ⟨fun none => none 0 ?_, fun first v _ hv => ?_⟩⟩
  · rw [admits_iff, and_iff_right hv]
    omega
  · rw [UInt32.lt_iff_toNat_lt]
    omega
  · refine down _ v ?_ last
    rw [UInt32.lt_iff_toNat_lt] at hv
    rw [UInt32.le_iff_toNat_le]
    omega
  · rw [UInt32.lt_iff_toNat_lt]
    exact pos
  · exact first (down v 0 (UInt32.le_iff_toNat_le.mpr (Nat.zero_le _)) hv)

/-- Four servers on two VMs that end at the highest port: both VMs accept. Two ports further
    up the first still accepts, and the second names the port that it lacks. -/
theorem admitted_up_to_highest_port :
    let t : Topology := ⟨4, 4, 2, 1, by decide, by decide, by decide, by decide⟩
    let params (base : UInt16) : ServerParams := ⟨"server", "::1", base, 2, .bloom, none, 1, "hosts.txt", none⟩
    (∀ v < t.serverVms, Admits t (params 65532) v) ∧ Admits t (params 65534) 0 ∧
      (build t 1 (params 65534)).result = .error (.portOutOfRange .server 65537) := by
  intro t params
  obtain ⟨-, one, all, -⟩ := admitted_up_to t (params 65532)
  obtain ⟨-, one', -, -⟩ := admitted_up_to t (params 65534)
  obtain ⟨accepts, refuses⟩ := one' 1 (by decide)
  have last : t.serverVms - 1 = 1 := by decide
  have lacks : portsEnd t 65534 1 - 1 = 65537 := by decide
  refine ⟨all.mpr ?_, (one' 0 (by decide)).1.mpr (by decide), ?_⟩
  · rw [last]
    exact (one 1 (by decide)).1.mpr (by decide)
  · rw [← lacks]
    exact refuses fun h => absurd (accepts.mp h) (by decide)

/-- Two servers on two VMs, the first of them on the highest port that there is: the first VM
    accepts, and the second refuses. -/
theorem admitted_on_half_the_fleet :
    let t : Topology := ⟨2, 2, 2, 1, by decide, by decide, by decide, by decide⟩
    let params : ServerParams := ⟨"server", "127.0.0.1", 65535, 2, .bloom, none, 1, "hosts.txt", none⟩
    (0 : UInt32) < t.serverVms ∧ (1 : UInt32) < t.serverVms ∧
      (∃ l, (build t 0 params).result = .ok l) ∧ ¬∃ l, (build t 1 params).result = .ok l := by
  intro t params
  have second : ¬portsEnd t params.basePort 1 ≤ maxPort + 1 := by decide
  exact ⟨by decide, by decide, admits_iff.mpr ⟨by decide, by decide⟩, fun accepts => second (admits_iff.mp accepts).2⟩

end Fleet.ServerLaunch

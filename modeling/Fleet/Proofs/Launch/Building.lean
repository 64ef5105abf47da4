/-
  Fleet.Proofs.Launch.Building — when a launch is built, and which one.

  A launch is built in steps, each of which can refuse it. Every lemma says of one step
  exactly when it goes through and what it then gives, so that nothing that is proved
  about a launch has to open the building of it again.
-/

import Fleet.Proofs.Placement.Partition
import Fleet.Settings.Resolve

namespace Fleet

/-! ## Steps -/

theorem mapError_eq_ok_iff {ε ε' α : Type} {f : ε → ε'} {r : Except ε α} {a : α} :
    r.mapError f = .ok a ↔ r = .ok a := by
  cases r with
  | error e => exact ⟨nofun, nofun⟩
  | ok b =>
    show Except.ok b = .ok a ↔ Except.ok b = .ok a
    rw [Except.ok.injEq, Except.ok.injEq]

theorem checkPort_eq_ok_iff {role : Role} {port : Nat} : checkPort role port = .ok () ↔ port ≤ maxPort := by
  unfold checkPort
  split
  · simp only [reduceCtorEq, false_iff]; omega
  · simp only [true_iff]; omega

theorem sliceFor_eq_ok_iff {t : Topology} {v : UInt32} {s : ServerSlice} :
    (sliceFor t v).result = .ok s ↔ t.slice v = .ok s := by
  unfold sliceFor
  simp only [Logged.bind_eq_ok_iff, Logged.ofExcept_result, Logged.note_result, Logged.pure_result, mapError_eq_ok_iff]
  constructor
  · rintro ⟨s', hs, _, _, hrest⟩
    cases hrest
    exact hs
  · intro h
    exact ⟨s, h, (), trivial, rfl⟩

theorem ClientLaunch.checkSweep_eq_ok_iff {params : ClientParams} {targets : List UInt32} {trials : UInt32} :
    checkSweep params targets trials = .ok () ↔
      targets ≠ [] ∧ trials ≠ 0 ∧ (params.opt.isSome = true → 1 < params.rate) := by
  unfold checkSweep
  by_cases ht : targets = []
  · simp [ht]
  · by_cases hn : trials = 0
    · simp [ht, hn]
    · cases params.opt with
      | none => simp [ht, hn]
      | some o =>
        by_cases hr : params.rate ≤ 1
        · simp [ht, hn, hr, UInt32.not_lt.mpr hr]
        · simp [ht, hn, hr, UInt32.not_le.mp hr]

/-! ## Launches -/

theorem ServerLaunch.build_eq_ok_iff {t : Topology} {v : UInt32} {params : ServerParams} {l : ServerLaunch} :
    (build t v params).result = .ok l ↔
      ∃ s, t.slice v = .ok s ∧ lastServerPort params.basePort s ≤ maxPort ∧ l = ⟨t, v, s, params⟩ := by
  unfold build
  simp only [Logged.bind_eq_ok_iff, Logged.ofExcept_result, Logged.note_result, Logged.pure_result, sliceFor_eq_ok_iff]
  constructor
  · rintro ⟨s, hs, _, hp, _, _, hl⟩
    cases hl
    exact ⟨s, hs, checkPort_eq_ok_iff.mp hp, rfl⟩
  · rintro ⟨s, hs, hp, rfl⟩
    exact ⟨s, hs, (), checkPort_eq_ok_iff.mpr hp, (), trivial, rfl⟩

theorem ClientLaunch.build_eq_ok_iff {t : Topology} {v : UInt32} {params : ClientParams} {targets : List UInt32}
    {trials : UInt32} {l : ClientLaunch} :
    (build t v params targets trials).result = .ok l ↔
      checkSweep params targets trials = .ok () ∧ ∃ s, t.slice v = .ok s ∧ (t.clientsPerVm - 1).toNat ≤ maxPort ∧
        lastServerPort params.basePort s ≤ maxPort ∧ l = ⟨t, v, s, targets, trials, params⟩ := by
  unfold build
  simp only [Logged.bind_eq_ok_iff, Logged.ofExcept_result, Logged.note_result, Logged.pure_result, sliceFor_eq_ok_iff,
    mapError_eq_ok_iff]
  constructor
  · rintro ⟨_, hc, s, hs, _, hp, _, hq, _, _, hl⟩
    cases hl
    exact ⟨hc, s, hs, checkPort_eq_ok_iff.mp hp, checkPort_eq_ok_iff.mp hq, rfl⟩
  · rintro ⟨hc, s, hs, hp, hq, rfl⟩
    exact ⟨(), hc, s, hs, (), checkPort_eq_ok_iff.mpr hp, (), checkPort_eq_ok_iff.mpr hq, (), trivial, rfl⟩

theorem ServerLaunch.commands_ne_nil {t : Topology} {v : UInt32} {params : ServerParams} {l : ServerLaunch}
    (built : (build t v params).result = .ok l) : l.commands ≠ [] := by
  obtain ⟨s, hs, -, rfl⟩ := build_eq_ok_iff.mp built
  have some := t.serversPerVm_pos
  rw [← Topology.slice_size hs] at some
  refine List.length_pos_iff.mp ?_
  simpa [commands, invocations] using some

/-! ## Launches from flags -/

theorem ServerFlags.launch_eq_ok_iff {f : ServerFlags} {file : FileSettings} {localIp : String} {l : ServerLaunch} :
    (f.launch file localIp).result = .ok l ↔
      ∃ t v e, (f.topology.resolve file).result = .ok (t, v) ∧ f.experiment.resolve file = .ok e ∧
        (ServerLaunch.build t v (f.params file localIp e)).result = .ok l := by
  unfold launch
  simp only [Logged.bind_eq_ok_iff, Logged.ofExcept_result, Prod.exists]
  constructor
  · rintro ⟨t, v, ht, e, he, hl⟩
    exact ⟨t, v, e, ht, he, hl⟩
  · rintro ⟨t, v, e, ht, he, hl⟩
    exact ⟨t, v, ht, e, he, hl⟩

theorem ClientFlags.launch_eq_ok_iff {f : ClientFlags} {file : FileSettings} {l : ClientLaunch} :
    (f.launch file).result = .ok l ↔
      ∃ t v e, (f.topology.resolve file).result = .ok (t, v) ∧ f.experiment.resolve file = .ok e ∧
        (ClientLaunch.build t v (f.params file e) (f.targets file)
          ((f.trial <|> file.client.trial).getD 1)).result = .ok l := by
  unfold launch
  simp only [Logged.bind_eq_ok_iff, Logged.ofExcept_result, Prod.exists]
  constructor
  · rintro ⟨t, v, ht, e, he, hl⟩
    exact ⟨t, v, e, ht, he, hl⟩
  · rintro ⟨t, v, e, ht, he, hl⟩
    exact ⟨t, v, ht, e, he, hl⟩

end Fleet

/-
  Fleet.Proofs.Launch.Strictness — what strictness changes.

  Workers that an even share leaves over are warned about or, if strictness is asked for,
  refused. Nothing else hangs on it: a strict check is the lax one and then a look at what the
  topology leaves over, the servers first (`Topology.check_strict`).

  The warnings of a topology are listed behind its checks, and not where each role is looked
  at. That comes to the same (`Topology.buildInOrder_eq`): a role is refused only in one mode
  and warned about only in the other, so no error ever follows a warning.

  `strictness_only_refuses`: with strictness a topology or a launch comes out as without, or is
  refused for exactly what is left over; and without it exactly this is warned about.
-/

import Fleet.Proofs.Settings.Precedence
import Fleet.Proofs.Placement.Partition

namespace Fleet

/-! ## What a topology leaves over -/

namespace Topology

variable (t : Topology)

theorem unassignedServerIds_isEmpty_iff :
    t.unassignedServerIds.isEmpty = true ↔ t.totalServers % t.serverVms = 0 := by
  rw [IdRange.isEmpty_iff, size_unassigned, ← UInt32.toNat_inj, UInt32.toNat_mod, UInt32.toNat_zero]

theorem ofNat_size_unassigned : UInt32.ofNat t.unassignedServerIds.size = t.totalServers % t.serverVms := by
  rw [size_unassigned, ← UInt32.toNat_mod, UInt32.ofNat_toNat]

theorem unassignedClients_eq_mod : t.unassignedClients = t.totalClients % t.clientVms := by
  rw [← UInt32.toNat_inj, unassignedClients_eq, UInt32.toNat_mod]

/-- The refusal of what a topology leaves over. Servers go before clients. -/
def leftover? : Option PlacementError :=
  if t.unassignedServerIds.isEmpty = false then
    some (.unevenSplit .server t.totalServers t.serverVms (.ofNat t.unassignedServerIds.size))
  else if t.unassignedClients ≠ 0 then some (.unevenSplit .client t.totalClients t.clientVms t.unassignedClients)
  else none

theorem leftover?_eq : t.leftover? =
    if t.totalServers % t.serverVms ≠ 0 then
      some (.unevenSplit .server t.totalServers t.serverVms (t.totalServers % t.serverVms))
    else if t.totalClients % t.clientVms ≠ 0 then
      some (.unevenSplit .client t.totalClients t.clientVms (t.totalClients % t.clientVms))
    else none := by
  have servers : t.unassignedServerIds.isEmpty = false ↔ t.totalServers % t.serverVms ≠ 0 := by
    rw [← Bool.not_eq_true, ne_eq, unassignedServerIds_isEmpty_iff]
  simp only [leftover?, servers, ofNat_size_unassigned, unassignedClients_eq_mod]

theorem leftover?_eq_some_iff {role : Role} {total vms dropped : UInt32} :
    t.leftover? = some (.unevenSplit role total vms dropped) ↔
      (t.unassignedServerIds.isEmpty = false ∧ role = .server ∧ total = t.totalServers ∧ vms = t.serverVms ∧
          dropped.toNat = t.unassignedServerIds.toList.length) ∨
        (t.unassignedServerIds.isEmpty = true ∧ 0 < t.unassignedClients ∧ role = .client ∧ total = t.totalClients ∧
          vms = t.clientVms ∧ dropped = t.unassignedClients) := by
  have length : dropped.toNat = t.unassignedServerIds.toList.length ↔
      dropped = .ofNat t.unassignedServerIds.size := by
    rw [← UInt32.toNat_inj, ofNat_size_unassigned, IdRange.length_toList, size_unassigned, UInt32.toNat_mod]
  have some_left : 0 < t.unassignedClients ↔ t.unassignedClients ≠ 0 := by
    rw [UInt32.lt_iff_toNat_lt, ne_eq, ← UInt32.toNat_inj, UInt32.toNat_zero]
    omega
  rw [leftover?, length, some_left]
  by_cases servers : t.unassignedServerIds.isEmpty = true
  · by_cases clients : t.unassignedClients = 0
    · simp [servers, clients]
    · simp [servers, clients, eq_comm]
  · simp [servers, eq_comm]

theorem uneven_of_leftover? {e : PlacementError} (h : t.leftover? = some e) :
    ∃ role total vms dropped, e = .unevenSplit role total vms dropped := by
  unfold leftover? at h
  split at h
  · cases h
    exact ⟨_, _, _, _, rfl⟩
  · split at h
    · cases h
      exact ⟨_, _, _, _, rfl⟩
    · cases h

def orRefused : Except PlacementError Topology :=
  match t.leftover? with
  | some e => .error e
  | none => .ok t

/-! ## Two modes -/

variable (servers clients serverVms clientVms : UInt32)

theorem check_strict : check .strict servers clients serverVms clientVms =
    (check .truncate servers clients serverVms clientVms).bind orRefused := by
  unfold check
  by_cases hs : servers = 0
  · simp [hs, Except.bind]
  by_cases hc : clients = 0
  · simp [hs, hc, Except.bind]
  by_cases hsv : serverVms = 0
  · simp [hs, hc, hsv, Except.bind]
  by_cases hcv : clientVms = 0
  · simp [hs, hc, hsv, hcv, Except.bind]
  by_cases hse : servers / serverVms = 0
  · simp [hs, hc, hsv, hcv, hse, Except.bind]
  by_cases hce : clients / clientVms = 0
  · simp [hs, hc, hsv, hcv, hse, hce, Except.bind]
  simp only [hs, hc, hsv, hcv, hse, hce, Except.bind, orRefused, leftover?_eq, if_false, dif_neg, not_false_eq_true,
    reduceCtorEq, false_and, true_and]
  by_cases evenServers : servers % serverVms = 0
  · by_cases evenClients : clients % clientVms = 0
    · simp [evenServers, evenClients]
    · simp [evenServers, evenClients]
  · simp [evenServers]

/-- Without strictness no split is refused. -/
theorem check_truncate_ne_uneven (role : Role) (total vms dropped : UInt32) :
    check .truncate servers clients serverVms clientVms ≠ .error (.unevenSplit role total vms dropped) := by
  intro h
  unfold check at h
  repeat' split at h
  all_goals simp_all

/-! ## Role by role -/

/-- The split of a role is refused or warned about as soon as it is looked at. -/
def lookAtSplit (mode : Partition) (role : Role) (total vms : UInt32) (warning : Event) : Logged PlacementError Unit :=
  if total % vms = 0 then pure ()
  else match mode with
    | .strict => .fail (.unevenSplit role total vms (total % vms))
    | .truncate => .note warning

theorem lookAtSplit_truncate (role : Role) (total vms : UInt32) (warning : Event) :
    lookAtSplit .truncate role total vms warning = ⟨.ok (), if total % vms = 0 then [] else [warning]⟩ := by
  unfold lookAtSplit
  split <;> rfl

theorem lookAtSplit_strict (role : Role) (total vms : UInt32) (warning : Event) :
    lookAtSplit .strict role total vms warning =
      ⟨if total % vms = 0 then .ok () else .error (.unevenSplit role total vms (total % vms)), []⟩ := by
  unfold lookAtSplit
  split <;> rfl

/-- The counts, then the servers, then the clients, and each is done with before the next. -/
def buildInOrder (mode : Partition) : Logged PlacementError Topology := do
  let t ← Logged.ofExcept (check .truncate servers clients serverVms clientVms)
  lookAtSplit mode .server servers serverVms (.unevenServers servers serverVms t.unassignedServerIds)
  lookAtSplit mode .client clients clientVms (.unevenClients clients clientVms t.unassignedClients)
  if t.clientsPerServer = 0 then Logged.note (.fewClients servers clients)
  return t

theorem buildInOrder_eq (mode : Partition) :
    buildInOrder servers clients serverVms clientVms mode = build mode servers clients serverVms clientVms := by
  unfold buildInOrder build
  cases lax : check .truncate servers clients serverVms clientVms with
  | error e =>
    rw [Logged.ofExcept, Logged.error_bind]
    cases mode with
    | truncate => rw [lax]; rfl
    | strict => rw [check_strict, lax]; rfl
  | ok t =>
    obtain ⟨rfl, rfl, rfl, rfl⟩ := check_counts lax
    rw [Logged.ofExcept, Logged.ok_bind]
    cases mode with
    | truncate =>
      -- nothing fails any more, and each role has its say
      rw [lax]
      by_cases few : t.clientsPerServer = 0
      · simp [lookAtSplit_truncate, Logged.ok_bind, Logged.pure_eq, Logged.note, warnings, few]
      · simp [lookAtSplit_truncate, Logged.ok_bind, Logged.pure_eq, warnings, few]
    | strict =>
      -- nothing is said before both roles have passed
      rw [check_strict, lax, Except.bind, orRefused, leftover?_eq]
      by_cases servers : t.totalServers % t.serverVms = 0
      · by_cases clients : t.totalClients % t.clientVms = 0
        · by_cases few : t.clientsPerServer = 0
          · simp [lookAtSplit_strict, Logged.ok_bind, Logged.pure_eq, Logged.note, warnings, servers, clients, few]
          · simp [lookAtSplit_strict, Logged.ok_bind, Logged.pure_eq, warnings, servers, clients, few]
        · simp [lookAtSplit_strict, Logged.ok_bind, Logged.error_bind, Logged.fail, servers, clients]
      · simp [lookAtSplit_strict, Logged.error_bind, Logged.fail, servers]

/-! ## Warnings -/

def leftoverServers? : Event → Option IdRange
  | .unevenServers _ _ ids => some ids
  | _ => none

def leftoverClients? : Event → Option UInt32
  | .unevenClients _ _ left => some left
  | _ => none

theorem build_events (mode : Partition) : (build mode servers clients serverVms clientVms).events =
    match check mode servers clients serverVms clientVms with
    | .ok t => t.warnings
    | .error _ => [] := by
  unfold build
  cases check mode servers clients serverVms clientVms with
  | ok t => rfl
  | error e => rfl

theorem filterMap_leftoverServers? (t : Topology) : t.warnings.filterMap leftoverServers? =
    if t.totalServers % t.serverVms = 0 then [] else [t.unassignedServerIds] := by
  simp [warnings, apply_ite (List.filterMap leftoverServers?), leftoverServers?]

theorem filterMap_leftoverClients? (t : Topology) : t.warnings.filterMap leftoverClients? =
    if t.totalClients % t.clientVms = 0 then [] else [t.unassignedClients] := by
  simp [warnings, apply_ite (List.filterMap leftoverClients?), List.filterMap_cons, leftoverClients?]

end Topology

/-! ## Two runs -/

/-- With strictness a topology is built as without it, down to the warnings, or refused. -/
theorem Topology.build_strict (servers clients serverVms clientVms : UInt32) :
    build .strict servers clients serverVms clientVms = build .truncate servers clients serverVms clientVms ∨
      ∃ role total vms dropped,
        build .strict servers clients serverVms clientVms = .fail (.unevenSplit role total vms dropped) := by
  unfold build
  rw [check_strict]
  cases check .truncate servers clients serverVms clientVms with
  | error e => exact .inl rfl
  | ok t =>
    rw [Except.bind, orRefused]
    cases left : t.leftover? with
    | none => exact .inl rfl
    | some e =>
      obtain ⟨role, total, vms, dropped, rfl⟩ := t.uneven_of_leftover? left
      exact .inr ⟨role, total, vms, dropped, rfl⟩

/-- The first of two computations is the second, or the silent refusal of an uneven split. -/
def OnlyRefuses {α : Type} (strict lax : Logged LaunchError α) : Prop :=
  strict = lax ∨ ∃ role total vms dropped, strict = .fail (.placement (.unevenSplit role total vms dropped))

theorem OnlyRefuses.bind {α β : Type} {strict lax : Logged LaunchError α} {f : α → Logged LaunchError β}
    (h : OnlyRefuses strict lax) : OnlyRefuses (strict >>= f) (lax >>= f) := by
  rcases h with same | ⟨role, total, vms, dropped, refused⟩
  · exact .inl (by rw [same])
  · exact .inr ⟨role, total, vms, dropped, by rw [refused]; rfl⟩

section Launches

variable (file : FileSettings)

def FileSettings.withStrict (strict : Bool) : FileSettings :=
  { file with launch := { file.launch with strict := some strict } }

theorem TopologyFlags.resolve_strict {t : TopologyFlags} (unasked : t.strict = false) :
    OnlyRefuses (t.resolve (file.withStrict true)) (t.resolve (file.withStrict false)) := by
  unfold resolve FileSettings.withStrict
  simp only [unasked]
  refine .bind ?_
  rcases Topology.build_strict _ _ _ _ with same | ⟨role, total, vms, dropped, refused⟩
  · exact .inl (congrArg (Logged.mapError LaunchError.placement) same)
  · exact .inr ⟨role, total, vms, dropped, congrArg (Logged.mapError LaunchError.placement) refused⟩

theorem ServerFlags.launch_strict {f : ServerFlags} (unasked : f.topology.strict = false) (localIp : String) :
    OnlyRefuses (f.launch (file.withStrict true) localIp) (f.launch (file.withStrict false) localIp) :=
  .bind (TopologyFlags.resolve_strict file unasked)

theorem ClientFlags.launch_strict {f : ClientFlags} (unasked : f.topology.strict = false) :
    OnlyRefuses (f.launch (file.withStrict true)) (f.launch (file.withStrict false)) :=
  .bind (TopologyFlags.resolve_strict file unasked)

end Launches

theorem FileSettings.ofServer_withStrict {v w : ∀ s : ServerSetting, s.Value}
    (same : ∀ s, s ≠ .shared .strict → w s = v s) : ofServer w = (ofServer v).withStrict (w (.shared .strict)) := by
  simp (disch := decide) only [ofServer, ofShared, withStrict, same]

theorem FileSettings.ofClient_withStrict {v w : ∀ s : ClientSetting, s.Value}
    (same : ∀ s, s ≠ .shared .strict → w s = v s) : ofClient w = (ofClient v).withStrict (w (.shared .strict)) := by
  simp (disch := decide) only [ofClient, ofShared, withStrict, same]

theorem ServerFlags.launch_tightened {f f' : ServerFlags} {file file' : FileSettings} {localIp : String}
    (same : ∀ s, s ≠ .shared .strict → f'.valuesInForce file' localIp s = f.valuesInForce file localIp s)
    (lax : f.valuesInForce file localIp (.shared .strict) = false)
    (strict : f'.valuesInForce file' localIp (.shared .strict) = true) :
    OnlyRefuses (f'.launch file' localIp) (f.launch file localIp) := by
  rw [launch_eq_of_file, f.launch_eq_of_file, FileSettings.ofServer_withStrict same, strict,
    FileSettings.ofServer_withStrict (v := f.valuesInForce file localIp) fun _ _ => rfl, lax]
  exact launch_strict _ rfl localIp

theorem ClientFlags.launch_tightened {f f' : ClientFlags} {file file' : FileSettings}
    (same : ∀ s, s ≠ .shared .strict → f'.valuesInForce file' s = f.valuesInForce file s)
    (lax : f.valuesInForce file (.shared .strict) = false) (strict : f'.valuesInForce file' (.shared .strict) = true) :
    OnlyRefuses (f'.launch file') (f.launch file) := by
  rw [launch_eq_of_file, f.launch_eq_of_file, FileSettings.ofClient_withStrict same, strict,
    FileSettings.ofClient_withStrict (v := f.valuesInForce file) fun _ _ => rfl, lax]
  exact launch_strict _ rfl

/-! ## What strictness changes -/

structure Topology.Modes (servers clients serverVms clientVms : UInt32) : Prop where
  same_or_refused :
    (build .strict servers clients serverVms clientVms).result =
        (build .truncate servers clients serverVms clientVms).result ∨
      ∃ role total vms dropped,
        (build .strict servers clients serverVms clientVms).result = .error (.unevenSplit role total vms dropped)
  /-- What would be accepted but for what it leaves over is refused for it, the servers first. -/
  refused_iff : ∀ role total vms dropped,
    (build .strict servers clients serverVms clientVms).result = .error (.unevenSplit role total vms dropped) ↔
      ∃ t, (build .truncate servers clients serverVms clientVms).result = .ok t ∧
        ((t.unassignedServerIds.isEmpty = false ∧ role = .server ∧ total = servers ∧ vms = serverVms ∧
            dropped.toNat = t.unassignedServerIds.toList.length) ∨
          (t.unassignedServerIds.isEmpty = true ∧ 0 < t.unassignedClients ∧ role = .client ∧ total = clients ∧
            vms = clientVms ∧ dropped = t.unassignedClients))
  lax_accepts : ∀ role total vms dropped,
    (build .truncate servers clients serverVms clientVms).result ≠ .error (.unevenSplit role total vms dropped)
  serversWarned : (build .truncate servers clients serverVms clientVms).events.filterMap leftoverServers? =
    match (build .truncate servers clients serverVms clientVms).result with
      | .ok t => if servers.toNat % serverVms.toNat = 0 then [] else [t.unassignedServerIds]
      | .error _ => []
  clientsWarned : (build .truncate servers clients serverVms clientVms).events.filterMap leftoverClients? =
    match (build .truncate servers clients serverVms clientVms).result with
      | .ok t => if clients.toNat % clientVms.toNat = 0 then [] else [t.unassignedClients]
      | .error _ => []
  inOrder : ∀ mode, buildInOrder servers clients serverVms clientVms mode = build mode servers clients serverVms clientVms
  silent : ∀ mode e, (buildInOrder servers clients serverVms clientVms mode).result = .error e →
    (buildInOrder servers clients serverVms clientVms mode).events = []

theorem Topology.modes (servers clients serverVms clientVms : UInt32) : Modes servers clients serverVms clientVms where
  same_or_refused := by
    rcases build_strict servers clients serverVms clientVms with same | ⟨role, total, vms, dropped, refused⟩
    · exact .inl (congrArg Logged.result same)
    · exact .inr ⟨role, total, vms, dropped, congrArg Logged.result refused⟩
  refused_iff role total vms dropped := by
    rw [build_result, build_result, check_strict]
    cases lax : check .truncate servers clients serverVms clientVms with
    | error e =>
      have even : e ≠ .unevenSplit role total vms dropped := fun h =>
        check_truncate_ne_uneven servers clients serverVms clientVms role total vms dropped (h ▸ lax)
      simp [Except.bind, even]
    | ok t =>
      obtain ⟨rfl, rfl, rfl, rfl⟩ := check_counts lax
      have refused : t.orRefused = .error (.unevenSplit role total vms dropped) ↔
          t.leftover? = some (.unevenSplit role total vms dropped) := by
        unfold orRefused
        cases t.leftover? <;> simp
      rw [Except.bind, refused, leftover?_eq_some_iff]
      simp
  lax_accepts role total vms dropped := by
    rw [build_result]
    exact check_truncate_ne_uneven servers clients serverVms clientVms role total vms dropped
  serversWarned := by
    rw [build_result, build_events]
    cases lax : check .truncate servers clients serverVms clientVms with
    | error e => rfl
    | ok t =>
      obtain ⟨rfl, rfl, rfl, rfl⟩ := check_counts lax
      simp only [filterMap_leftoverServers?, ← UInt32.toNat_mod, ← UInt32.toNat_zero, UInt32.toNat_inj]
  clientsWarned := by
    rw [build_result, build_events]
    cases lax : check .truncate servers clients serverVms clientVms with
    | error e => rfl
    | ok t =>
      obtain ⟨rfl, rfl, rfl, rfl⟩ := check_counts lax
      simp only [filterMap_leftoverClients?, ← UInt32.toNat_mod, ← UInt32.toNat_zero, UInt32.toNat_inj]
  inOrder := buildInOrder_eq servers clients serverVms clientVms
  silent mode e h := by
    rw [buildInOrder_eq, build_result] at h
    rw [buildInOrder_eq, build_events, h]

/-- With strictness a topology or a launch comes out as without it or is refused for an uneven
    split, and a topology exactly for what it leaves over; without strictness it is warned about
    exactly that, and never before an error. -/
theorem strictness_only_refuses (localIp : String) :
    (∀ servers clients serverVms clientVms, Topology.Modes servers clients serverVms clientVms) ∧
      (∀ (f f' : ServerFlags) (file file' : FileSettings),
        (∀ s, s ≠ .shared .strict → f'.valuesInForce file' localIp s = f.valuesInForce file localIp s) →
        f.valuesInForce file localIp (.shared .strict) = false →
        f'.valuesInForce file' localIp (.shared .strict) = true →
        OnlyRefuses (f'.launch file' localIp) (f.launch file localIp)) ∧
      ∀ (f f' : ClientFlags) (file file' : FileSettings),
        (∀ s, s ≠ .shared .strict → f'.valuesInForce file' s = f.valuesInForce file s) →
        f.valuesInForce file (.shared .strict) = false → f'.valuesInForce file' (.shared .strict) = true →
        OnlyRefuses (f'.launch file') (f.launch file) :=
  ⟨Topology.modes, fun _ _ _ _ => ServerFlags.launch_tightened, fun _ _ _ _ => ClientFlags.launch_tightened⟩

/-- Five servers on two VMs and seven clients on three leave one of each over. With strictness
    the servers are named, without it both are warned about. The flag that asks for strictness
    does no more than that to a launch of these servers. -/
theorem strictness_only_refuses_both_uneven :
    (Topology.build .strict 5 7 2 3).result = .error (.unevenSplit .server 5 2 1) ∧
      (Topology.build .truncate 5 7 2 3).events.filterMap Topology.leftoverServers? = [⟨4, 5⟩] ∧
      (Topology.build .truncate 5 7 2 3).events.filterMap Topology.leftoverClients? = [1] ∧
      OnlyRefuses
        (ServerFlags.launch { topology := { totalServers := some 5, serverVms := some 2, strict := true } } {} "::1")
        (ServerFlags.launch { topology := { totalServers := some 5, serverVms := some 2 } } {} "::1") := by
  obtain ⟨modes, servers, -⟩ := strictness_only_refuses "::1"
  have modes := modes 5 7 2 3
  refine ⟨(modes.refused_iff _ _ _ _).mpr ?_, modes.serversWarned.trans (by rfl), modes.clientsWarned.trans (by rfl),
    servers _ _ _ _ (fun s hs => ?_) rfl rfl⟩
  · exact ⟨⟨5, 7, 2, 3, by decide, by decide, by decide, by decide⟩, by rfl, .inl ⟨by decide, rfl, rfl, rfl, by decide⟩⟩
  · cases s with
    | shared s =>
      cases s with
      | strict => exact absurd rfl hs
      | _ => rfl
    | _ => rfl

end Fleet

/-
  Fleet.Proofs.Run.Halting — how a call of the launcher can fail. What can be wrong with a
  launch is found out before anything is started. A launch that is started returns, unless
  the clock does not hold the deadline of a batch or a worker without a timeout never ends
  (`Halt.Caused`).

  The first of these is not looked at before the batch has been started
  (`halts_with_workers`), so a call can fail and leave workers behind.
-/

import Fleet.Proofs.Run.DryRun
import Fleet.Proofs.Run.Starting

namespace Fleet

open Fleet.System

variable {σ : Type}

/-! ## Causes -/

/-- What has to be so for a run that has started some workers to come to a halt at `clock`. -/
def Halt.Caused (pacing : Pacing) (clock : Instant) (workers : List Worker) : Halt → Prop
  | .clockOverflow => ¬pacing.Holds clock
  | .endless => pacing.timeout = none ∧ ∃ w ∈ workers, w.fate = .never

theorem Halt.Caused.mono {pacing : Pacing} {clock : Instant} {ws ws' : List Worker} {halt : Halt}
    (caused : halt.Caused pacing clock ws) (sub : ws ⊆ ws') : halt.Caused pacing clock ws' := by
  cases halt with
  | clockOverflow => exact caused
  | endless =>
    obtain ⟨untimed, w, hw, never⟩ := caused
    exact ⟨untimed, w, sub hw, never⟩

theorem Worker.fate_of_endTime?_none {w : Worker} (h : w.endTime? = none) : w.fate = .never := by
  unfold endTime? at h
  split at h
  · assumption
  · cases h

theorem never_of_wait {cut : Option (Instant × Cut)} {ws : List Worker} {now : Instant} {s : BatchSummary}
    {events : List Event} (h : wait cut ws now s = (events, none)) : cut = none ∧ ∃ w ∈ ws, w.fate = .never := by
  have vain : ¬((∃ tc, cut = some tc) ∨ ∀ w ∈ ws, ∃ u, w.endTime? = some u) := by
    intro comes
    obtain ⟨events', clock, summary, hwait⟩ : ∃ events clock summary,
        wait cut ws now s = (events, some (clock, summary)) := wait_ends comes
    rw [h] at hwait
    cases hwait
  rw [not_or] at vain
  refine ⟨Option.eq_none_iff_forall_ne_some.mpr fun tc hc => vain.1 ⟨tc, hc⟩, ?_⟩
  by_contra none_never
  refine vain.2 fun w hw => ?_
  cases he : w.endTime? with
  | none => exact (none_never ⟨w, hw, Worker.fate_of_endTime?_none he⟩).elim
  | some u => exact ⟨u, rfl⟩

/-! ## Runs -/

section Runs

variable {l : ClientLaunch} {h : Host σ} {pacing : Pacing} {raised : Option Instant} {halt : Halt}

theorem Host.batch_error {now : Instant} {place : σ} {commands : List Command}
    (halted : (h.batch pacing raised now place commands).result = .error halt) :
    halt.Caused pacing (h.batch pacing raised now place commands).clock
      (workersOf (h.batch pacing raised now place commands).acts) := by
  rw [workersOf_batch]
  rcases h.batch_cases pacing raised now place commands with
    ⟨_, _, _, -, -, hb⟩ | ⟨events, hwait, hb⟩ | ⟨⟨length, timed, le⟩, hb⟩ <;> rw [hb] at halted ⊢ <;> cases halted
  · obtain ⟨uncut, w, hw, never⟩ := never_of_wait hwait
    refine ⟨?_, w, (Worker.inEndOrder_perm _).mem_iff.mp hw, never⟩
    cases timed : pacing.timeout with
    | none => rfl
    | some length =>
      have hd : now + length ∈ Cut.deadline.time? (h.batchRaised raised now place commands) (pacing.deadline now) := by
        simp [Cut.time?, Pacing.deadline, timed]
      obtain ⟨t, c, hc⟩ := Cut.exists_first? .deadline hd
      rw [uncut] at hc
      cases hc
  · intro holds
    exact Nat.not_lt_of_le le (holds length timed)

theorem ClientLaunch.runFrom_error {n k : Nat} {now : Instant} {place : σ} {total : SweepSummary}
    (halted : (l.runFrom h pacing raised n k now place total).result = .error halt) :
    halt.Caused pacing (l.runFrom h pacing raised n k now place total).clock
      (workersOf (l.runFrom h pacing raised n k now place total).acts) := by
  induction n generalizing k now place total with
  | zero => cases halted
  | succ n ih =>
    cases hr : l.runAt? k with
    | none =>
      rw [l.runFrom_end h pacing raised hr] at halted
      cases halted
    | some r =>
      rcases l.runFrom_cases h pacing raised hr n now place total with
        ⟨halt', hb, hrun⟩ | ⟨s, -, -, hrun⟩ | ⟨s, clock, -, -, -, hrun⟩ | ⟨s, clock, -, -, -, hrun⟩ <;>
        rw [hrun] at halted ⊢
      · cases halted
        exact Host.batch_error hb
      · cases halted
      · cases halted
      · refine (ih halted).mono fun w hw => ?_
        rw [workersOf_append]
        exact List.mem_append_right _ hw

theorem ServerLaunch.run_error {l : ServerLaunch} {now : Instant} {place : σ}
    (halted : (l.run h pacing raised now place).result = .error halt) :
    halt.Caused pacing (l.run h pacing raised now place).clock (workersOf (l.run h pacing raised now place).acts) := by
  rcases l.run_cases h pacing raised now place with ⟨s, -, hrun⟩ | ⟨halt', hb, hrun⟩ <;> rw [hrun] at halted ⊢
  · cases halted
  · cases halted
    exact Host.batch_error hb

end Runs

/-! ## Calls -/

/-- A launch that was performed has started workers. It returned, unless something kept it
    from that. -/
structure Performance.Settled (p : Performance) (pacing : Pacing) : Prop where
  printed : linesOf p.acts ≠ []
  started : workersOf p.acts ≠ []
  returns : pacing.Holds p.clock → (pacing.timeout.isSome ∨ ∀ w ∈ workersOf p.acts, w.fate ≠ .never) →
    ∃ total, p.result = .ok total
  halts : ∀ halt, p.result = .error halt → halt.Caused pacing p.clock (workersOf p.acts)

theorem Performance.Of.settled {p : Performance} {ran : Ran σ SweepSummary} {pacing : Pacing} {commands : List Command}
    (of : p.Of ran) (nonempty : commands ≠ []) (starts : Starts ran.acts commands)
    (error : ∀ halt, ran.result = .error halt → halt.Caused pacing ran.clock (workersOf ran.acts)) :
    p.Settled pacing := by
  have length := (of.starts starts).length
  have some : 0 < commands.length := List.length_pos_iff.mpr nonempty
  have halts : ∀ halt, p.result = .error halt → halt.Caused pacing p.clock (workersOf p.acts) := by
    intro halt halted
    rw [of.clock, of.workers]
    exact error halt (of.result ▸ halted)
  refine ⟨List.length_pos_iff.mp (by omega), List.length_pos_iff.mp (by omega), fun holds comes => ?_, halts⟩
  cases hr : p.result with
  | ok total => exact ⟨total, rfl⟩
  | error halt =>
    have caused := halts halt hr
    cases halt with
    | clockOverflow => exact (caused holds).elim
    | endless =>
      obtain ⟨untimed, w, hw, never⟩ := caused
      rcases comes with timed | all
      · rw [untimed] at timed
        cases timed
      · exact (all w hw never).elim

theorem ServerLaunch.performOn_settled {t : Topology} {v : UInt32} {params : ServerParams} {l : ServerLaunch}
    (built : (build t v params).result = .ok l) (dryRun : Bool) (pacing : Pacing) (raised : Option Instant)
    (m : Machine) : (l.performOn dryRun pacing raised m).Settled pacing := by
  obtain ⟨σ, h, place, of⟩ := l.performOn_of pacing raised m dryRun
  exact of.settled (commands_ne_nil built) (l.run_starts h pacing raised 0 place) fun halt => run_error

theorem ClientLaunch.performOn_settled {t : Topology} {v : UInt32} {params : ClientParams} {targets : List UInt32}
    {trials : UInt32} {l : ClientLaunch} (built : (build t v params targets trials).result = .ok l) (dryRun : Bool)
    (pacing : Pacing) (raised : Option Instant) (m : Machine) :
    (l.performOn dryRun pacing raised m).Settled pacing := by
  obtain ⟨σ, h, place, of⟩ := l.performOn_of pacing raised m dryRun
  obtain ⟨pos, some⟩ := points_of_built built
  obtain ⟨k, one, le, starts, -⟩ := run_starts h pacing raised pos some 0 place
  refine of.settled ?_ starts fun halt => runFrom_error
  obtain ⟨r, rest, hruns⟩ : ∃ r rest, l.runs.take k = r :: rest :=
    List.exists_cons_of_length_pos (by rw [List.length_take]; omega)
  rw [hruns, commandsOf_cons]
  exact List.append_ne_nil_of_left_ne_nil (l.commandsFor_ne_nil r.target) _

theorem Outcome.code_ofPerformance (before : List Event) (p : Performance) :
    (ofPerformance before p).code = 0 ↔ ∃ total, p.result = .ok total := by
  unfold ofPerformance
  cases p.result with
  | ok total => exact ⟨fun _ => ⟨total, rfl⟩, fun _ => rfl⟩
  | error halt => exact ⟨nofun, nofun⟩

/-- A call that is to perform a launch fails in one of two ways. If the launch cannot be
    built, that is reported and nothing is printed, and the machine stays as it is. If it can,
    workers are started, and the call succeeds, whenever the shutdown flag goes up, unless
    the clock does not hold the deadline of a batch or a worker without a timeout never
    ends. -/
theorem calls_fail_early_or_halt (localIp : String) (m : Machine) (file : FileSettings) (run : RunFlags) :
    (∀ flags : ServerFlags,
      let outcome := Launcher.perform localIp m file (.servers flags run)
      (∀ e, (flags.launch file localIp).result = .error e →
        outcome.code = 1 ∧ outcome.out = "" ∧ outcome.machine = m) ∧
      ∀ l, (flags.launch file localIp).result = .ok l →
        (outcome.code = 0 ↔ ∃ total, (l.performOn run.dryRun (run.pacing file) none m).result = .ok total) ∧
        ∀ raised, (l.performOn run.dryRun (run.pacing file) raised m).Settled (run.pacing file)) ∧
    (∀ flags : ClientFlags,
      let outcome := Launcher.perform localIp m file (.clients flags run)
      (∀ e, (flags.launch file).result = .error e →
        outcome.code = 1 ∧ outcome.out = "" ∧ outcome.machine = m) ∧
      ∀ l, (flags.launch file).result = .ok l →
        (outcome.code = 0 ↔ ∃ total, (l.performOn run.dryRun (run.pacing file) none m).result = .ok total) ∧
        ∀ raised, (l.performOn run.dryRun (run.pacing file) raised m).Settled (run.pacing file)) := by
  refine ⟨fun flags => ⟨fun e failed => ?_, fun l built => ⟨?_, fun raised => ?_⟩⟩,
    fun flags => ⟨fun e failed => ?_, fun l built => ⟨?_, fun raised => ?_⟩⟩⟩
  · rw [Launcher.perform, Outcome.ofLaunch_of_error failed]
    exact ⟨rfl, rfl, rfl⟩
  · rw [Launcher.perform, Outcome.ofLaunch_of_ok built]
    exact Outcome.code_ofPerformance _ _
  · obtain ⟨t, v, e, -, -, built⟩ := ServerFlags.launch_eq_ok_iff.mp built
    exact ServerLaunch.performOn_settled built run.dryRun (run.pacing file) raised m
  · rw [Launcher.perform, Outcome.ofLaunch_of_error failed]
    exact ⟨rfl, rfl, rfl⟩
  · rw [Launcher.perform, Outcome.ofLaunch_of_ok built]
    exact Outcome.code_ofPerformance _ _
  · obtain ⟨t, v, e, -, -, built⟩ := ClientFlags.launch_eq_ok_iff.mp built
    exact ClientLaunch.performOn_settled built run.dryRun (run.pacing file) raised m

/-- A call for a VM that there is not fails early. One with a timeout that the clock holds
    succeeds. -/
theorem calls_fail_early_or_halt_timed :
    (Launcher.perform "::1" .fresh {} (.servers { topology := { vmId := some 1 } } {})).code = 1 ∧
      (Launcher.perform "::1" .fresh {} (.clients { num := [7, 9] }
        { dryRun := true, workerTimeout := some 5 })).code = 0 := by
  obtain ⟨servers, -⟩ := calls_fail_early_or_halt "::1" .fresh {} {}
  obtain ⟨-, clients⟩ := calls_fail_early_or_halt "::1" .fresh {} { dryRun := true, workerTimeout := some 5 }
  obtain ⟨early, -⟩ := servers { topology := { vmId := some 1 } }
  obtain ⟨-, late⟩ := clients { num := [7, 9] }
  obtain ⟨e, failed⟩ : ∃ e, (ServerFlags.launch { topology := { vmId := some 1 } } {} "::1").result = .error e := ⟨_, rfl⟩
  obtain ⟨l, hl, built⟩ : ∃ l, l = _ ∧ (ClientFlags.launch { num := [7, 9] } {}).result = .ok l := ⟨_, rfl, rfl⟩
  obtain ⟨code, settled⟩ := late l built
  refine ⟨(early e failed).1, code.mpr ((settled none).returns ?_ (.inl rfl))⟩
  -- the two pauses and the timeout are over long before the clock is
  have of := l.performOn_dry { timeout := some 5000 } none .fresh
  have clock : (l.run Host.dryRun { timeout := some 5000 } none 0 ()).clock = l.runCount * 1000 :=
    (ClientLaunch.run_dryRun (by rw [hl]; decide) (by rw [hl]; decide) (by rw [hl]; decide)).2
  show Pacing.Holds { timeout := some 5000 } (l.performOn true { timeout := some 5000 } none .fresh).clock
  rw [of.clock, clock, hl]
  decide

/-- The deadline of a batch is set when the batch has been started. With a timeout that the
    clock does not hold the call fails, and has printed a line and started a worker. -/
theorem halts_with_workers :
    ∃ l, (ClientFlags.launch { num := [7] } {}).result = .ok l ∧
      let run : RunFlags := { dryRun := true, workerTimeout := some 18446744073709551615 }
      let p := l.performOn true (run.pacing {}) none .fresh
      p.result = .error .clockOverflow ∧ linesOf p.acts ≠ [] ∧ workersOf p.acts ≠ [] ∧
        (Launcher.perform "::1" .fresh {} (.clients { num := [7] } run)).code = 101 := by
  obtain ⟨l, hl, built⟩ : ∃ l, l = _ ∧ (ClientFlags.launch { num := [7] } {}).result = .ok l := ⟨_, rfl, rfl⟩
  refine ⟨l, built, ?_⟩
  intro run p
  have halted : p.result = .error .clockOverflow := by
    subst hl
    rfl
  obtain ⟨t, v, e, -, -, built'⟩ := ClientFlags.launch_eq_ok_iff.mp built
  have settled : p.Settled _ := ClientLaunch.performOn_settled built' true _ none .fresh
  refine ⟨halted, settled.printed, settled.started, ?_⟩
  rw [Launcher.perform, Outcome.ofLaunch_of_ok built]
  have code (before : List Event) : (Outcome.ofPerformance before p).code = 101 := by
    rw [Outcome.ofPerformance, halted]
  exact code _

end Fleet

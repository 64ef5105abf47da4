/-
  Fleet.Proofs.Launch.Preview — a plan shows what a launch starts (`plan_shows_launch`).

  Where the launch cannot be built, the plan fails like the launch itself, with the same
  report. Where it can, the plan is written, unless it is a structured one of servers with a
  path in it that is no text (`raw_host_file_fails_structured_plan`). A dry run of the launch
  prints the commands of the plan (`Outcome.Rehearses`): those of a server launch once, those
  of each target of a client launch once for each trial (`AsPlanned`).
-/

import Fleet.Proofs.Launch.PlanReading
import Fleet.Proofs.Run.Printing
import Fleet.Proofs.Run.Totals

namespace Fleet

open Fleet.System

/-! ## As planned -/

/-- The totals of some batches whose workers have all succeeded. -/
def SweepSummary.full (batches workers : Nat) : SweepSummary where
  batches := .ofNat batches
  launched := .ofNat workers
  succeeded := .ofNat workers

theorem totals_full (k n : Nat) : totals (List.replicate k (.full n)) = .full k (k * n) := by
  induction k with
  | zero => rw [Nat.zero_mul]; rfl
  | succ k ih =>
    rw [List.replicate_succ', totals_concat, ih, Nat.succ_mul, SweepSummary.full, SweepSummary.full, UInt32.ofNat_add,
      UInt32.ofNat_add]
    rfl

/-- What comes of a launch that prints some lists of commands, each of them `times` over, if
    every printed command is launched and succeeds, and `pause` goes by behind each list that
    is printed. Counters are 32 bits wide. -/
structure AsPlanned (lists : List (List String)) (times pause : Nat) (printed : List String) (clock : Instant)
    (total : SweepSummary) : Prop where
  lines : printed = lists.flatMap fun commands => (List.replicate times commands).flatten
  clock : clock = lists.length * times * pause
  total : total = .full (lists.length * times) printed.length

/-- A call that prints what some plan shows and nothing else, whose last word is what came of it,
    and that leaves its machine as it is. -/
structure Outcome.Rehearses (o : Outcome) (m : Machine) (lists : List (List String)) (times pause : Nat) : Prop where
  code : o.code = 0
  err : o.err = ""
  machine : o.machine = m
  printed : ∃ printed total, o.out = unlines printed ∧ o.events.getLast? = some (.launchFinished total) ∧
    total.interrupted = false ∧ AsPlanned lists times pause printed o.clock total

def Outcome.Writes (o : Outcome) (text : String) : Prop := o.code = 0 ∧ o.out = text ∧ o.err = ""

def Outcome.Fails (o : Outcome) (failure : Failure) : Prop := o.code = 1 ∧ o.out = "" ∧ o.err = unlines failure.report

theorem Ran.getLast?_reported {σ : Type} {ran : Ran σ SweepSummary} {total : SweepSummary} (hok : ran.result = .ok total)
    (first : Event) {closing : SweepSummary → List Event} (silent : closing total = []) :
    (eventsOf ((ran.announce first).conclude closing).acts).getLast? = some (.launchFinished total) := by
  have result : (ran.announce first).result = .ok total := hok
  simp only [conclude, result, silent]
  simp [eventsOf, Act.event?]

theorem Performance.Of.rehearses {p : Performance} {ran : Ran Unit SweepSummary} (of : p.Of ran) (idle : p.machine.Idle)
    (timely : Timely 0 ran.acts) {total : SweepSummary} (hok : ran.result = .ok total)
    (last : p.events.getLast? = some (.launchFinished total)) (quiet : total.interrupted = false)
    {lists : List (List String)} {times pause : Nat}
    (planned : AsPlanned lists times pause (linesOf ran.acts) ran.clock total) (before : List Event) :
    (Outcome.ofPerformance before p).Rehearses p.machine lists times pause := by
  have whole : Timely 0 p.acts := by
    obtain ⟨first, words, hacts⟩ := of.acts
    rw [hacts]
    exact (timely.say first).saying words
  rw [Outcome.ofPerformance_idle idle whole (of.result.trans hok), of.lines, of.clock]
  refine ⟨rfl, rfl, rfl, linesOf ran.acts, total, rfl, ?_, quiet, planned⟩
  show (before ++ p.events).getLast? = _
  rw [List.getLast?_append, last]
  rfl

/-! ## Servers -/

namespace ServerLaunch

variable {l : ServerLaunch} {pacing : Pacing} {raised : Option Instant}

/-- The only batch of a dry server launch, whatever it takes up first of what is ready at one
    instant. -/
theorem asPlanned (nonempty : l.commands ≠ []) (positive : ∀ length ∈ pacing.timeout, 0 < length)
    {flag : Option Instant} {clock : Instant} {summary : BatchSummary} {said : List Event}
    (returns : Select.Returns flag (pacing.deadline 0) ⟨0, Host.dryRun.batchWorkers 0 () l.commands,
      { launched := .ofNat l.commands.length }, []⟩ clock summary said) (quiet : summary.interrupted = false) :
    AsPlanned (commandLists l.planLines) 1 0 (l.commands.map (·.line)) clock (({} : SweepSummary).absorb summary) := by
  obtain ⟨rfl, rfl⟩ := Host.dryRun_summary positive returns quiet
  have full := totals_full 1 l.commands.length
  rw [Nat.one_mul] at full
  rw [l.commandLists_planLines nonempty]
  refine ⟨by simp, rfl, ?_⟩
  rw [List.length_map]
  exact full

theorem run_asPlanned (nonempty : l.commands ≠ []) (positive : ∀ length ∈ pacing.timeout, 0 < length)
    {total : SweepSummary} (hok : (l.run Host.dryRun pacing raised 0 ()).result = .ok total)
    (quiet : total.interrupted = false) :
    AsPlanned (commandLists l.planLines) 1 0 (linesOf (l.run Host.dryRun pacing raised 0 ()).acts)
      (l.run Host.dryRun pacing raised 0 ()).clock total := by
  rw [(l.run_starts Host.dryRun pacing raised 0 ()).lines]
  rcases l.run_cases Host.dryRun pacing raised 0 () with ⟨s, hb, hrun⟩ | ⟨halt, -, hrun⟩ <;> rw [hrun] at hok ⊢ <;>
    cases hok
  obtain ⟨events, hwait⟩ := Host.wait_of_batch hb
  have returns := Host.batchWait_returns Host.dryRun_forward.ahead hwait
  exact asPlanned nonempty positive returns ((Bool.false_or _).symm.trans quiet)

theorem run_dryRun (holds : pacing.Holds 0) :
    ∃ total, (l.run Host.dryRun pacing none 0 ()).result = .ok total ∧ total.interrupted = false := by
  have all : ∀ w ∈ Host.dryRun.batchWorkers 0 () l.commands, w.endTime?.isSome :=
    longest?_isSome.mp (by rw [Host.longest?_dryRun]; rfl)
  obtain ⟨events, clock, summary, hwait⟩ : ∃ events clock summary,
      Host.dryRun.batchWait pacing none 0 () l.commands = (events, some (clock, summary)) :=
    wait_ends (.inr fun w hw => Option.isSome_iff_exists.mp (all w ((Worker.inEndOrder_perm _).mem_iff.mp hw)))
  have hb := congrArg Ran.result (Host.batch_of_wait holds hwait)
  have quiet := ClientLaunch.batch_unasked (fun _ => rfl) hb
  rcases l.run_cases Host.dryRun pacing none 0 () with ⟨s, hs, hrun⟩ | ⟨halt, hs, hrun⟩
  · obtain rfl : summary = s := Except.ok.inj (hb.symm.trans hs)
    exact ⟨_, congrArg Ran.result hrun, quiet⟩
  · rw [hb] at hs
    cases hs

theorem performOn_asPlanned (nonempty : l.commands ≠ []) (positive : ∀ length ∈ pacing.timeout, 0 < length) {m : Machine}
    {total : SweepSummary} (hok : (l.performOn true pacing raised m).result = .ok total)
    (quiet : total.interrupted = false) :
    AsPlanned (commandLists l.planLines) 1 0 (linesOf (l.performOn true pacing raised m).acts)
      (l.performOn true pacing raised m).clock total := by
  have of := l.performOn_dry pacing raised m
  rw [of.lines, of.clock]
  exact run_asPlanned nonempty positive (of.result.symm.trans hok) quiet

theorem performOn_rehearses (nonempty : l.commands ≠ []) (positive : ∀ length ∈ pacing.timeout, 0 < length)
    (holds : pacing.Holds 0) {m : Machine} (idle : m.Idle) (before : List Event) :
    (Outcome.ofPerformance before (l.performOn true pacing none m)).Rehearses m (commandLists l.planLines) 1 0 := by
  obtain ⟨total, hok, quiet⟩ := run_dryRun (l := l) holds
  exact (l.performOn_dry pacing none m).rehearses idle (l.run_timely pacing none 0 ()) hok
    (Ran.getLast?_reported hok _ (if_neg (by simp [quiet]))) quiet (run_asPlanned nonempty positive hok quiet) before

end ServerLaunch

/-! ## Clients -/

namespace ClientLaunch

open Sweep

variable {l : ClientLaunch} {pacing : Pacing} {raised : Option Instant}

theorem commandsOf_runs (l : ClientLaunch) : l.commandsOf l.runs =
    l.targets.flatMap fun target => (List.replicate l.trials.toNat (l.commandsFor target)).flatten := by
  rw [commandsOf, runs, List.flatMap_assoc]
  refine congrArg (l.targets.flatMap ·) (funext fun target => ?_)
  rw [runsFor, List.flatMap_map]
  simp [List.flatMap_def]

theorem length_commandsOf_runs (l : ClientLaunch) :
    (l.commandsOf l.runs).length = l.runCount * l.topology.clientsPerVm.toNat := by
  rw [commandsOf, List.length_flatMap, ← length_runs]
  simp only [length_commandsFor, List.map_const', List.sum_replicate_nat]

theorem lines_asPlanned (l : ClientLaunch) : (l.commandsOf l.runs).map (·.line) =
    (commandLists l.planLines).flatMap fun commands => (List.replicate l.trials.toNat commands).flatten := by
  rw [commandsOf_runs, commandLists_planLines]
  simp [List.map_flatMap, List.flatMap_map, List.map_flatten]

/-- A dry sweep that is not interrupted, whatever it takes up first of what is ready at one
    instant. -/
theorem asPlanned (positive : ∀ length ∈ pacing.timeout, 0 < length)
    (held : l.runCount * pacing.settle < Clock.horizon) {s : Sweeping Unit} {clock : Instant}
    (steps : Steps l Host.dryRun pacing raised (begin l Host.dryRun pacing l.runs 0 () {} []) s)
    (ended : s.phase = .ended clock) (quiet : s.total.interrupted = false) :
    AsPlanned (commandLists l.planLines) l.trials.toNat pacing.settle ((l.commandsOf l.runs).map (·.line)) clock
      s.total := by
  obtain ⟨⟨summaries, each, htotal⟩, points_eq⟩ := Steps.books steps ended quiet
  have count : (commandLists l.planLines).length * l.trials.toNat = l.runCount := by
    rw [commandLists_planLines, List.length_map]
    rfl
  have started : s.started.length = l.runCount := by
    rw [← List.length_map (·.point), points_eq, length_runs]
  refine ⟨l.lines_asPlanned, ?_, ?_⟩
  · rw [count]
    obtain ⟨cut, -⟩ | ⟨-, htable⟩ := (Steps.onTime Host.dryRun_forward steps).ended ended
    · rw [quiet] at cut
      cases cut
    · rw [← length_runs] at held ⊢
      rw [l.timetable_dryRun pacing (by rwa [Nat.zero_add]), Nat.zero_add] at htable
      exact Option.some.inj (congrArg Timetable.back htable)
  · have full : summaries = List.replicate l.runCount (.full l.topology.clientsPerVm.toNat) := by
      refine List.eq_replicate_iff.mpr ⟨each.length_eq.symm.trans started, ?_⟩
      refine forall_mem_of_forall₂ each fun t s completes => ?_
      obtain ⟨quiet, clock, said, returns⟩ := completes
      have length : (t.commands l).length = l.topology.clientsPerVm.toNat := l.length_commandsFor t.point.target
      rw [← length]
      exact (Host.dryRun_summary positive returns quiet).2
    rw [htotal, full, totals_full, count, List.length_map, length_commandsOf_runs]

theorem run_asPlanned (pos : 0 < l.trials.toNat) (some : 0 < l.runCount)
    (positive : ∀ length ∈ pacing.timeout, 0 < length) (held : l.runCount * pacing.settle < Clock.horizon)
    {total : SweepSummary} (hok : (l.run Host.dryRun pacing raised 0 ()).result = .ok total)
    (quiet : total.interrupted = false) :
    AsPlanned (commandLists l.planLines) l.trials.toNat pacing.settle
      (linesOf (l.run Host.dryRun pacing raised 0 ()).acts) (l.run Host.dryRun pacing raised 0 ()).clock total := by
  obtain ⟨s, steps, ended, -, rfl, -⟩ :=
    runFrom_ended (k := 0) Host.dryRun_forward pos (Nat.zero_add l.runCount) [] rfl hok
  obtain ⟨k, -, -, starts, all⟩ := run_starts Host.dryRun pacing raised pos some 0 ()
  have whole : l.runs.take k = l.runs := by rw [all s.total hok quiet, List.take_length]
  rw [starts.lines, whole]
  exact asPlanned positive held steps ended quiet

theorem performOn_asPlanned (pos : 0 < l.trials.toNat) (some : 0 < l.runCount)
    (positive : ∀ length ∈ pacing.timeout, 0 < length) (held : l.runCount * pacing.settle < Clock.horizon) {m : Machine}
    {total : SweepSummary} (hok : (l.performOn true pacing raised m).result = .ok total)
    (quiet : total.interrupted = false) :
    AsPlanned (commandLists l.planLines) l.trials.toNat pacing.settle (linesOf (l.performOn true pacing raised m).acts)
      (l.performOn true pacing raised m).clock total := by
  have of := l.performOn_dry pacing raised m
  rw [of.lines, of.clock]
  exact run_asPlanned pos some positive held (of.result.symm.trans hok) quiet

theorem performOn_rehearses (pos : 0 < l.trials.toNat) (some : 0 < l.runCount)
    (positive : ∀ length ∈ pacing.timeout, 0 < length) (held : l.runCount * pacing.settle < Clock.horizon)
    (holds : pacing.Holds ((l.runCount - 1) * pacing.settle)) {m : Machine} (idle : m.Idle) (before : List Event) :
    (Outcome.ofPerformance before (l.performOn true pacing none m)).Rehearses m (commandLists l.planLines)
      l.trials.toNat pacing.settle := by
  obtain ⟨⟨total, hok, quiet⟩, -⟩ := run_dryRun (l := l) pos held holds
  exact (l.performOn_dry pacing none m).rehearses idle (l.runFrom_timely pacing none Host.dryRun_forward _ 0 0 () {}) hok
    (Ran.getLast?_reported hok _ (if_neg (by simp [quiet]))) quiet (run_asPlanned pos some positive held hok quiet) before

theorem sweep?_eq_zip (l : ClientLaunch) :
    l.planJson.sweep? = some ((l.targets.map fun target => (target.toNat : Int)).zip (commandLists l.planLines)) := by
  rw [sweep?_planJson, commandLists_planLines, List.zip_map']

end ClientLaunch

/-! ## Plans and launches -/

theorem Launcher.perform_planServers {localIp : String} {m : Machine} {file : FileSettings} {flags : ServerFlags}
    {l : ServerLaunch} (built : (flags.launch file localIp).result = .ok l) (format : PlanFormat) :
    perform localIp m file (.planServers flags format) =
      .atOnce m (.ofPlan (flags.launch file localIp).events (l.plan format)) := by
  rw [perform, Outcome.ofLaunch_of_ok built]

theorem Launcher.perform_planClients {localIp : String} {m : Machine} {file : FileSettings} {flags : ClientFlags}
    {l : ClientLaunch} (built : (flags.launch file).result = .ok l) (format : PlanFormat) :
    perform localIp m file (.planClients flags format) =
      .atOnce m (.ofPlan (flags.launch file).events (.ok (l.plan format))) := by
  rw [perform, Outcome.ofLaunch_of_ok built]

/-- A structured plan of servers fails where a path in it is no text, and only there. -/
theorem ServerLaunch.plan_json {l : ServerLaunch} (nonempty : l.commands ≠ []) : l.plan .json =
    if l.params.paths.all OsText.isText then .ok (l.planJson.pretty ++ "\n") else .error .pathNotText := by
  have shown : l.invocations ≠ [] := fun h => nonempty (by rw [commands, h]; rfl)
  rw [plan, checkPaths]
  simp only [shown, false_or]
  split <;> rfl

/-- If a launch cannot be built, asking for its plan fails, and the launch fails just so, with
    the same report. If it can, the plan is shown; only a structured plan of servers, of which
    every record holds the paths of the host file and the logs, fails where such a path is no
    text. Both formats have the same lists of commands, one for a server VM and one for each
    target of a client VM. A dry run of the launch that is not interrupted prints these commands,
    and nothing else: a server launch once, a client launch once for each trial of the target.
    Every one of them is launched and succeeds, and only the pauses between trials take time. So
    does a call, and so whatever is taken up first of what is ready at one instant. -/
theorem plan_shows_launch (localIp : String) {m : Machine} (idle : m.Idle) (file : FileSettings) :
    (∀ flags : ServerFlags,
      (∀ e, (flags.launch file localIp).result = .error e → ∀ format run,
        let plan := Launcher.perform localIp m file (.planServers flags format)
        plan.Fails (.launch .server e) ∧ Launcher.perform localIp m file (.servers flags run) = plan) ∧
      ∀ l, (flags.launch file localIp).result = .ok l →
        (Launcher.perform localIp m file (.planServers flags .text)).Writes (unlines l.planLines) ∧
        (if l.params.paths.all OsText.isText
          then (Launcher.perform localIp m file (.planServers flags .json)).Writes (l.planJson.pretty ++ "\n")
          else (Launcher.perform localIp m file (.planServers flags .json)).Fails (.plan .pathNotText)) ∧
        (∃ shown, commandLists l.planLines = [shown] ∧ l.planJson.commands? = some shown) ∧
        (∀ run : RunFlags, run.dryRun = true → (∀ length ∈ (run.pacing file).timeout, 0 < length) →
          (run.pacing file).Holds 0 →
          (Launcher.perform localIp m file (.servers flags run)).Rehearses m (commandLists l.planLines) 1 0) ∧
        ∀ pacing raised, (∀ length ∈ pacing.timeout, 0 < length) →
          let p := l.performOn true pacing raised m
          let begun : Waiting :=
            ⟨0, Host.dryRun.batchWorkers 0 () l.commands, { launched := .ofNat l.commands.length }, []⟩
          (∀ total, p.result = .ok total → total.interrupted = false →
            AsPlanned (commandLists l.planLines) 1 0 (linesOf p.acts) p.clock total) ∧
          ∀ clock summary said, Select.Returns raised (pacing.deadline 0) begun clock summary said →
            summary.interrupted = false → AsPlanned (commandLists l.planLines) 1 0 (l.commands.map (·.line)) clock
              (({} : SweepSummary).absorb summary)) ∧
    ∀ flags : ClientFlags,
      (∀ e, (flags.launch file).result = .error e → ∀ format run,
        let plan := Launcher.perform localIp m file (.planClients flags format)
        plan.Fails (.launch .client e) ∧ Launcher.perform localIp m file (.clients flags run) = plan) ∧
      ∀ l, (flags.launch file).result = .ok l →
        (Launcher.perform localIp m file (.planClients flags .text)).Writes (unlines l.planLines) ∧
        (Launcher.perform localIp m file (.planClients flags .json)).Writes (l.planJson.pretty ++ "\n") ∧
        (commandLists l.planLines).length = l.targets.length ∧
        l.planJson.sweep? =
          some ((l.targets.map fun target => (target.toNat : Int)).zip (commandLists l.planLines)) ∧
        (∀ run : RunFlags, run.dryRun = true → (∀ length ∈ (run.pacing file).timeout, 0 < length) →
          l.runCount * (run.pacing file).settle < Clock.horizon →
          (run.pacing file).Holds ((l.runCount - 1) * (run.pacing file).settle) →
          (Launcher.perform localIp m file (.clients flags run)).Rehearses m (commandLists l.planLines)
            l.trials.toNat (run.pacing file).settle) ∧
        ∀ pacing raised, (∀ length ∈ pacing.timeout, 0 < length) → l.runCount * pacing.settle < Clock.horizon →
          let p := l.performOn true pacing raised m
          let begun := Sweep.begin l Host.dryRun pacing l.runs 0 () {} []
          (∀ total, p.result = .ok total → total.interrupted = false →
            AsPlanned (commandLists l.planLines) l.trials.toNat pacing.settle (linesOf p.acts) p.clock total) ∧
          ∀ s clock, Sweep.Steps l Host.dryRun pacing raised begun s → s.phase = .ended clock →
            s.total.interrupted = false → AsPlanned (commandLists l.planLines) l.trials.toNat pacing.settle
              ((s.started.flatMap (·.commands l)).map (·.line)) clock s.total := by
  refine ⟨fun flags => ⟨fun e failed format run => ?_, fun l built => ?_⟩,
    fun flags => ⟨fun e failed format run => ?_, fun l built => ?_⟩⟩
  · rw [Launcher.perform, Launcher.perform, Outcome.ofLaunch_of_error failed, Outcome.ofLaunch_of_error failed]
    exact ⟨⟨rfl, rfl, rfl⟩, rfl⟩
  · obtain ⟨t, v, e, -, -, built'⟩ := ServerFlags.launch_eq_ok_iff.mp built
    have nonempty := ServerLaunch.commands_ne_nil built'
    refine ⟨?_, ?_, ⟨_, l.commandLists_planLines nonempty, l.commands?_planJson⟩, ?_, ?_⟩
    · rw [Launcher.perform_planServers built]
      exact ⟨rfl, rfl, rfl⟩
    · rw [Launcher.perform_planServers built, ServerLaunch.plan_json nonempty]
      split <;> exact ⟨rfl, rfl, rfl⟩
    · intro run dry positive holds
      rw [Launcher.perform, Outcome.ofLaunch_of_ok built, dry]
      exact ServerLaunch.performOn_rehearses nonempty positive holds idle _
    · intro pacing raised positive p begun
      exact ⟨fun _ => ServerLaunch.performOn_asPlanned nonempty positive,
        fun clock summary said => ServerLaunch.asPlanned nonempty positive⟩
  · rw [Launcher.perform, Launcher.perform, Outcome.ofLaunch_of_error failed, Outcome.ofLaunch_of_error failed]
    exact ⟨⟨rfl, rfl, rfl⟩, rfl⟩
  · obtain ⟨t, v, e, -, -, built'⟩ := ClientFlags.launch_eq_ok_iff.mp built
    obtain ⟨pos, some⟩ := ClientLaunch.points_of_built built'
    refine ⟨?_, ?_, ?_, l.sweep?_eq_zip, ?_, ?_⟩
    · rw [Launcher.perform_planClients built]
      exact ⟨rfl, rfl, rfl⟩
    · rw [Launcher.perform_planClients built]
      exact ⟨rfl, rfl, rfl⟩
    · rw [ClientLaunch.commandLists_planLines, List.length_map]
    · intro run dry positive held holds
      rw [Launcher.perform, Outcome.ofLaunch_of_ok built, dry]
      exact ClientLaunch.performOn_rehearses pos some positive held holds idle _
    · intro pacing raised positive held p begun
      refine ⟨fun _ => ClientLaunch.performOn_asPlanned pos some positive held, fun s clock steps ended quiet => ?_⟩
      obtain ⟨-, points_eq⟩ := Sweep.Steps.books steps ended quiet
      have commands : s.started.flatMap (·.commands l) = l.commandsOf l.runs := by
        rw [← points_eq, ClientLaunch.commandsOf, List.flatMap_map]
        rfl
      rw [commands]
      exact ClientLaunch.asPlanned positive held steps ended quiet

/-- A VM that there is not has no plan. Three targets, two of them equal, have a plan, and two
    trials of each print it twice, target by target, with a pause behind every trial. -/
theorem plan_shows_launch_repeated :
    let absent : ServerFlags := { topology := { vmId := some 1 } }
    let flags : ClientFlags := { num := [9, 7, 9], trial := some 2 }
    let run : RunFlags := { dryRun := true, workerTimeout := some 5, settle := some 3 }
    (∃ e, (Launcher.perform "::1" .fresh {} (.planServers absent .json)).Fails (.launch .server e)) ∧
      ∃ l, (flags.launch {}).result = .ok l ∧
        (Launcher.perform "::1" .fresh {} (.planClients flags .text)).Writes (unlines l.planLines) ∧
        (Launcher.perform "::1" .fresh {} (.clients flags run)).Rehearses .fresh (commandLists l.planLines) 2 3000 ∧
        (Launcher.perform "::1" .fresh {} (.clients flags run)).clock = 18000 := by
  intro absent flags run
  obtain ⟨servers, clients⟩ := plan_shows_launch "::1" (m := .fresh) ⟨rfl, rfl, rfl, rfl⟩ {}
  obtain ⟨e, failed⟩ : ∃ e, (absent.launch {} "::1").result = .error e := by
    unfold absent
    exact ⟨_, rfl⟩
  obtain ⟨l, hl, built⟩ : ∃ l, l = _ ∧ (flags.launch {}).result = .ok l := by
    unfold flags
    exact ⟨_, rfl, rfl⟩
  obtain ⟨text, -, count, -, dry, -⟩ := (clients flags).2 l built
  have trials : l.trials.toNat = 2 := by rw [hl]; rfl
  have targets : l.targets.length = 3 := by rw [hl]; rfl
  have points : l.runCount = 6 := by rw [ClientLaunch.runCount, targets, trials]
  have pacing : run.pacing {} = { settle := 3000, timeout := some 5000 } := by
    unfold run
    rfl
  have holds : (run.pacing {}).Holds ((l.runCount - 1) * (run.pacing {}).settle) := by
    rw [points, pacing]
    rintro _ ⟨rfl⟩
    decide
  have rehearses := dry run rfl (by decide) (by rw [points, pacing]; decide) holds
  rw [trials, pacing] at rehearses
  obtain ⟨printed, total, -, -, -, planned⟩ := rehearses.printed
  refine ⟨⟨e, ((servers absent).1 e failed .json run).1⟩, l, built, text, rehearses, ?_⟩
  rw [planned.clock, count, targets]
  rfl

/-- With a host file whose path is no text the launch is built, shown in lines and rehearsed, but
    its structured plan fails. -/
theorem raw_host_file_fails_structured_plan :
    let flags : ServerFlags := { hostFile := some (.raw [0x68, 0x6F, 0x73, 0x74, 0x73, 0xFF] rfl) }
    (∃ l, (flags.launch {} "::1").result = .ok l) ∧
      (Launcher.perform "::1" .fresh {} (.planServers flags .json)).Fails (.plan .pathNotText) ∧
      (Launcher.perform "::1" .fresh {} (.planServers flags .text)).code = 0 ∧
      (Launcher.perform "::1" .fresh {} (.servers flags { dryRun := true })).code = 0 := by
  intro flags
  obtain ⟨l, hl, built⟩ : ∃ l, l = _ ∧ (flags.launch {} "::1").result = .ok l := by
    unfold flags
    exact ⟨_, rfl, rfl⟩
  obtain ⟨t, v, e, -, -, built'⟩ := ServerFlags.launch_eq_ok_iff.mp built
  have nonempty := ServerLaunch.commands_ne_nil built'
  refine ⟨⟨l, built⟩, ?_, ?_, ?_⟩
  · rw [Launcher.perform_planServers built, ServerLaunch.plan_json nonempty, if_neg (by rw [hl]; decide)]
    exact ⟨rfl, rfl, rfl⟩
  · rw [Launcher.perform_planServers built]
    rfl
  · rw [Launcher.perform, Outcome.ofLaunch_of_ok built]
    have holds : (RunFlags.pacing { dryRun := true } {}).Holds 0 := by decide
    exact (ServerLaunch.performOn_rehearses nonempty (by decide) holds ⟨rfl, rfl, rfl, rfl⟩ _).code

end Fleet

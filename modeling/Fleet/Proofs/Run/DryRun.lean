/-
  Fleet.Proofs.Run.DryRun — a sweep with no processes behind it. Every worker is over as it
  starts, so a batch takes no time, and the timetable of the sweep is its pauses, one behind
  the other (`timetable_dryRun`). As long as the clock holds them, the sweep returns when
  they have passed (`run_dryRun`).
-/

import Fleet.Proofs.Run.Pacing

namespace Fleet

/-! ## Workers -/

namespace Host

variable (now : Instant) (commands : List Command)

theorem batchWorkers_dryRun : dryRun.batchWorkers now () commands =
    commands.map fun c => ⟨c.slot, now, .ends now (.exited (some 0))⟩ := by
  induction commands with
  | nil => rfl
  | cons c rest ih =>
    rw [batchWorkers_cons, List.map_cons, ← ih]
    rfl

theorem longest?_dryRun : longest? (dryRun.batchWorkers now () commands) = some 0 := by
  rw [batchWorkers_dryRun]
  induction commands with
  | nil => rfl
  | cons c rest ih =>
    rw [List.map_cons, longest?, ih, Worker.length?, Worker.endTime?]
    show some (max (now - now) 0) = some 0
    simp

theorem lastEnd?_dryRun : lastEnd? now (dryRun.batchWorkers now () commands) = some now := by
  rw [lastEnd?_eq_longest? (fun _ => dryRun.started_of_mem_batchWorkers now) dryRun_forward.ahead, longest?_dryRun]
  rfl

end Host

theorem Trial.span?_dryRun (t : Trial Unit) (l : ClientLaunch) (pacing : Pacing) :
    t.span? l Host.dryRun pacing = some 0 := by
  rw [span?, Pacing.span?, workers, Host.longest?_dryRun]
  cases pacing.timeout with
  | none => rfl
  | some length => exact congrArg some (Nat.min_zero length)

/-! ## Summaries -/

def BatchSummary.full (n : Nat) : BatchSummary := { launched := .ofNat n, succeeded := .ofNat n }

theorem tally_dryRun (n : Nat) (now : Instant) (commands : List Command) :
    tally n (Host.dryRun.batchWorkers now () commands) =
      { launched := .ofNat n, succeeded := .ofNat commands.length } := by
  have counts (v : Verdict) : count v (Host.dryRun.batchWorkers now () commands) =
      if v = .succeeded then commands.length else 0 := by
    rw [Host.batchWorkers_dryRun]
    induction commands with
    | nil => cases v <;> rfl
    | cons c rest ih =>
      rw [List.map_cons, count_cons, ih]
      cases v <;> rfl
  simp only [tally, counts]
  rfl

/-- Unless it is interrupted, a dry batch is over as it starts, and all of its workers have
    succeeded. It cannot time out before that. -/
theorem Host.dryRun_summary {flag : Option Instant} {pacing : Pacing} (positive : ∀ length ∈ pacing.timeout, 0 < length)
    {now clock : Instant} {commands : List Command} {summary : BatchSummary} {said : List Event}
    (returns : Select.Returns flag (pacing.deadline now)
      ⟨now, dryRun.batchWorkers now () commands, { launched := .ofNat commands.length }, []⟩ clock summary said)
    (quiet : summary.interrupted = false) : clock = now ∧ summary = .full commands.length := by
  obtain ⟨w, steps, rfl, stop⟩ := returns
  have length := dryRun.length_batchWorkers now () commands
  have counted : Counted flag (pacing.deadline now) now (dryRun.batchWorkers now () commands) w := by
    rw [← length] at steps
    exact (Counted.init dryRun_forward.ahead []).steps steps
  have last := lastEnd?_dryRun now commands
  cases stop with
  | done hl =>
    obtain ⟨hlast, -, counts⟩ := counted.done hl
    refine ⟨Option.some.inj (hlast.symm.trans last), ?_⟩
    rw [counts, tally_dryRun, length]
    rfl
  | cut c due =>
    cases c with
    | shutdown => cases quiet
    | deadline =>
      obtain ⟨d, hd, le⟩ := due
      obtain ⟨length, timed, rfl⟩ := Option.map_eq_some_iff.mp hd
      have before := counted.last now last
      have after := positive length timed
      lia

/-! ## The timetable -/

namespace ClientLaunch

variable (l : ClientLaunch) (pacing : Pacing)

theorem timetable_dryRun {points : List ExperimentRun} {now : Instant}
    (held : now + points.length * pacing.settle < Clock.horizon) :
    l.timetable Host.dryRun pacing points now () =
      ⟨points.zipIdx.map fun (r, k) => ⟨r, now + k * pacing.settle, ()⟩, some (now + points.length * pacing.settle)⟩ := by
  induction points generalizing now with
  | nil => simp [timetable]
  | cons r rest ih =>
    have next (k : Nat) : now + pacing.settle + k * pacing.settle = now + (k + 1) * pacing.settle := by
      rw [Nat.succ_mul]
      lia
    rw [List.length_cons, ← next] at held
    have settled : (⟨r, now, ()⟩ : Trial Unit).until? l Host.dryRun pacing = some (now + pacing.settle) := by
      rw [Trial.until?, Trial.span?_dryRun]
      exact congrArg some (Clock.pauseEnd_eq (Nat.lt_of_le_of_lt (Nat.le_add_right _ _) held))
    rcases timetable_cases r rest with ⟨hnone, -⟩ | ⟨time, htime, htable⟩
    · rw [settled] at hnone
      cases hnone
    · obtain rfl : now + pacing.settle = time := Option.some.inj (settled.symm.trans htime)
      rw [htable, ih held, Timetable.behind, List.length_cons, next]
      simp [List.zipIdx_succ, next]

variable {l pacing}

theorem holds_of_dryRun {points : List ExperimentRun} (held : points.length * pacing.settle < Clock.horizon)
    (holds : pacing.Holds ((points.length - 1) * pacing.settle)) :
    ∀ t ∈ (l.timetable Host.dryRun pacing points 0 ()).trials, pacing.Holds t.start := by
  intro t ht
  rw [l.timetable_dryRun pacing (by rwa [Nat.zero_add])] at ht
  obtain ⟨⟨r, k⟩, hk, rfl⟩ := List.mem_map.mp ht
  have lt : k < points.length := by simpa using (List.mem_zipIdx hk).2.1
  refine holds.mono ?_
  show 0 + k * pacing.settle ≤ _
  rw [Nat.zero_add]
  exact Nat.mul_le_mul_right _ (Nat.le_sub_one_of_lt lt)

/-- A dry run that nobody asks to stop returns when all of its pauses have passed. -/
theorem run_dryRun (pos : 0 < l.trials.toNat) (held : l.runCount * pacing.settle < Clock.horizon)
    (holds : pacing.Holds ((l.runCount - 1) * pacing.settle)) :
    (∃ total, (l.run Host.dryRun pacing none 0 ()).result = .ok total ∧ total.interrupted = false) ∧
      (l.run Host.dryRun pacing none 0 ()).clock = l.runCount * pacing.settle := by
  rw [← length_runs] at held holds ⊢
  obtain ⟨hok, -, hback⟩ := l.run_unflagged pacing 0 () Host.dryRun_forward (fun _ => rfl) pos
    (holds_of_dryRun held holds) fun t _ => by rw [t.span?_dryRun]; rfl
  rw [l.timetable_dryRun pacing (by rwa [Nat.zero_add]), Nat.zero_add] at hback
  exact ⟨hok, (Option.some.inj hback).symm⟩

end ClientLaunch

end Fleet

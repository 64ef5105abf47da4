/-
  Fleet.Proofs.Run.Totals — what the totals of a sweep are worth. They are added up batch by
  batch in words of 32 bits, so each of them is the sum over the batches modulo 2 ^ 32
  (`Counter.toNat_totals`), and nothing that is checked when a launch is built bounds that
  sum: the targets, the trials and the clients of a VM are bounded one by one only.

  `Booked` is what every step of a sweep keeps: each batch that is over has a summary, and
  the totals are those of these summaries. `sweep_totals_add_up` says what that makes of a
  sweep that is not interrupted. As long as it starts fewer than 2 ^ 32 workers the totals
  are exact; `totals_wrap` is a launch that is accepted and does not keep to that.
-/

import Fleet.Proofs.Run.Accounting
import Fleet.Proofs.Run.DryRun
import Fleet.Proofs.Run.Pacing

namespace Fleet

/-! ## Adding up -/

def totals (summaries : List BatchSummary) : SweepSummary := summaries.foldl SweepSummary.absorb {}

theorem totals_concat (summaries : List BatchSummary) (s : BatchSummary) :
    totals (summaries ++ [s]) = (totals summaries).absorb s := by
  simp [totals]

inductive Counter where
  | batches
  | launched
  | succeeded
  | failed
  | startFailed
  | timedOut
  deriving DecidableEq, Repr

namespace Counter

def total (s : SweepSummary) : Counter → UInt32
  | batches => s.batches
  | launched => s.launched
  | succeeded => s.succeeded
  | failed => s.failed
  | startFailed => s.startFailed
  | timedOut => s.timedOut

def part (s : BatchSummary) : Counter → UInt32
  | batches => 1
  | launched => s.launched
  | succeeded => s.succeeded
  | failed => s.failed
  | startFailed => s.startFailed
  | timedOut => s.timedOut

def sum (summaries : List BatchSummary) (c : Counter) : Nat := (summaries.map fun s => (c.part s).toNat).sum

theorem total_absorb (c : Counter) (total : SweepSummary) (s : BatchSummary) :
    c.total (total.absorb s) = c.total total + c.part s := by
  cases c <;> rfl

theorem sum_concat (c : Counter) (summaries : List BatchSummary) (s : BatchSummary) :
    c.sum (summaries ++ [s]) = c.sum summaries + (c.part s).toNat := by
  simp [sum]

/-- A counter shows the sum over the batches, less what does not fit into it. -/
theorem toNat_totals (c : Counter) (summaries : List BatchSummary) :
    (c.total (totals summaries)).toNat = c.sum summaries % UInt32.size := by
  induction summaries using List.reverseRecOn with
  | nil => cases c <;> rfl
  | append_singleton summaries s ih =>
    rw [totals_concat, total_absorb, UInt32.toNat_add, ih, sum_concat]
    exact Nat.mod_add_mod _ _ _

theorem sum_batches (summaries : List BatchSummary) : batches.sum summaries = summaries.length := by
  simp [sum, part]

variable {n : Nat} {summaries : List BatchSummary}

theorem sum_launched (each : ∀ s ∈ summaries, s.launched.toNat = n) :
    launched.sum summaries = summaries.length * n := by
  have same : summaries.map (fun s => (launched.part s).toNat) = summaries.map fun _ => n := List.map_congr_left each
  rw [sum, same, List.map_const', List.sum_replicate_nat]

/-- If every batch accounts for all of its workers, so do all batches together. -/
theorem sum_accounts (each : ∀ s ∈ summaries, s.ended + s.timedOut.toNat = s.launched.toNat) :
    succeeded.sum summaries + failed.sum summaries + startFailed.sum summaries + timedOut.sum summaries =
      launched.sum summaries := by
  induction summaries with
  | nil => rfl
  | cons s rest ih =>
    have hs := each s List.mem_cons_self
    have hrest := ih fun s' hs' => each s' (List.mem_cons_of_mem _ hs')
    simp only [sum, part, List.map_cons, List.sum_cons, BatchSummary.ended] at hs hrest ⊢
    omega

theorem sum_le (pos : 0 < n) (launched_eq : ∀ s ∈ summaries, s.launched.toNat = n)
    (each : ∀ s ∈ summaries, s.ended + s.timedOut.toNat = s.launched.toNat) (c : Counter) :
    c.sum summaries ≤ summaries.length * n := by
  have launched_sum := sum_launched launched_eq
  have accounts := sum_accounts each
  cases c with
  | batches =>
    rw [sum_batches]
    exact Nat.le_mul_of_pos_right _ pos
  | _ => omega

end Counter

variable {σ : Type}

/-! ## Books -/

theorem forall_mem_of_forall₂ {α β : Type} {R : α → β → Prop} {P : β → Prop} {as : List α} {bs : List β}
    (each : List.Forall₂ R as bs) (imp : ∀ a b, R a b → P b) : ∀ b ∈ bs, P b := by
  induction each with
  | nil => simp
  | cons r _ ih => exact List.forall_mem_cons.mpr ⟨imp _ _ r, ih⟩

/-- The loop of a batch can come to an end with a summary, and not by an interrupt. -/
def Trial.Completes (t : Trial σ) (l : ClientLaunch) (h : Host σ) (pacing : Pacing) (raised : Option Instant)
    (s : BatchSummary) : Prop :=
  s.interrupted = false ∧ ∃ clock said, Select.Returns (h.flag raised (t.after l h)) (pacing.deadline t.start)
    (Sweep.waiting l h t) clock s said

theorem Trial.length_workers (t : Trial σ) (l : ClientLaunch) (h : Host σ) :
    (t.workers l h).length = l.topology.clientsPerVm.toNat :=
  (h.length_batchWorkers t.start t.place _).trans (l.length_commandsFor t.point.target)

theorem Trial.Completes.accounts {t : Trial σ} {l : ClientLaunch} {h : Host σ} {pacing : Pacing}
    {raised : Option Instant} {s : BatchSummary} (completes : t.Completes l h pacing raised s) :
    s.launched.toNat = l.topology.clientsPerVm.toNat ∧ s.ended + s.timedOut.toNat = s.launched.toNat := by
  obtain ⟨quiet, clock, said, returns⟩ := completes
  have length : (t.commands l).length = l.topology.clientsPerVm.toNat := l.length_commandsFor t.point.target
  have fits : (t.commands l).length < UInt32.size := by
    rw [length]
    exact l.topology.clientsPerVm.toNat_lt
  obtain ⟨w, turns, -, stop⟩ := AnyOrder.returns_of_returns returns
  have begun : Accounted (t.commands l).length (Sweep.waiting l h t) :=
    .init fits (h.length_batchWorkers t.start t.place _)
  have accounts := (begun.turns fits turns).stop fits stop
  exact ⟨accounts.launched.trans length, accounts.whole quiet⟩

namespace Sweep

variable {l : ClientLaunch} {h : Host σ} {pacing : Pacing} {raised : Option Instant}

/-- The totals are those of the batches that were started, all of which are over. -/
def Books (l : ClientLaunch) (h : Host σ) (pacing : Pacing) (raised : Option Instant) (started : List (Trial σ))
    (total : SweepSummary) : Prop :=
  ∃ summaries, List.Forall₂ (fun t s => t.Completes l h pacing raised s) started summaries ∧ total = totals summaries

theorem Books.concat {started : List (Trial σ)} {total : SweepSummary} {t : Trial σ} {s : BatchSummary}
    (books : Books l h pacing raised started total) (completes : t.Completes l h pacing raised s) :
    Books l h pacing raised (started ++ [t]) (total.absorb s) := by
  obtain ⟨summaries, each, rfl⟩ := books
  exact ⟨summaries ++ [s], List.rel_append each (.cons completes .nil), (totals_concat summaries s).symm⟩

theorem Books.summaries {started : List (Trial σ)} {total : SweepSummary}
    (books : Books l h pacing raised started total) :
    ∃ summaries, List.Forall₂ (fun t s => t.Completes l h pacing raised s) started summaries ∧
      total = totals summaries ∧ summaries.length = started.length ∧
      (∀ s ∈ summaries, s.launched.toNat = l.topology.clientsPerVm.toNat) ∧
      ∀ s ∈ summaries, s.ended + s.timedOut.toNat = s.launched.toNat := by
  obtain ⟨summaries, each, htotal⟩ := books
  have accounts : ∀ s ∈ summaries,
      s.launched.toNat = l.topology.clientsPerVm.toNat ∧ s.ended + s.timedOut.toNat = s.launched.toNat :=
    forall_mem_of_forall₂ each fun t s completes => completes.accounts
  exact ⟨summaries, each, htotal, each.length_eq.symm, fun s hs => (accounts s hs).1, fun s hs => (accounts s hs).2⟩

/-- What holds at every step of a sweep of `all` points: unless it was stopped, the batches
    that are over are in the books, and what was started and what is left are all points. -/
inductive Booked (l : ClientLaunch) (h : Host σ) (pacing : Pacing) (raised : Option Instant)
    (all : List ExperimentRun) : Sweeping σ → Prop
  | batch (points : List ExperimentRun) (total : SweepSummary) (started : List (Trial σ)) (t : Trial σ) (w : Waiting) :
      Books l h pacing raised started total → (started ++ [t]).map (·.point) ++ points = all →
      Relation.ReflTransGen (Select.Step (h.flag raised (t.after l h)) (pacing.deadline t.start)) (waiting l h t) w →
      Booked l h pacing raised all ⟨points, t.after l h, total, started ++ [t], .batch t w⟩
  | pause (points : List ExperimentRun) (place : σ) (total : SweepSummary) (started : List (Trial σ))
      (since now : Instant) : Books l h pacing raised started total → started.map (·.point) ++ points = all →
      Booked l h pacing raised all ⟨points, place, total, started, .pause since now⟩
  | done (place : σ) (total : SweepSummary) (started : List (Trial σ)) (clock : Instant) :
      Books l h pacing raised started total → started.map (·.point) = all →
      Booked l h pacing raised all ⟨[], place, total, started, .ended clock⟩
  | stopped (points : List ExperimentRun) (place : σ) (total : SweepSummary) (started : List (Trial σ))
      (clock : Instant) : total.interrupted = true →
      Booked l h pacing raised all ⟨points, place, total, started, .ended clock⟩
  | halted (points : List ExperimentRun) (place : σ) (total : SweepSummary) (started : List (Trial σ)) (t : Trial σ) :
      Booked l h pacing raised all ⟨points, place, total, started, .halted t⟩

section Booked

variable {all : List ExperimentRun}

theorem Booked.begin {points : List ExperimentRun} {now : Instant} {place : σ} {total : SweepSummary}
    {started : List (Trial σ)} (books : Books l h pacing raised started total)
    (points_eq : started.map (·.point) ++ points = all) :
    Booked l h pacing raised all (begin l h pacing points now place total started) := by
  cases points with
  | nil =>
    rw [List.append_nil] at points_eq
    exact .done _ _ _ _ books points_eq
  | cons r rest =>
    by_cases holds : pacing.Holds now
    · rw [begin_of_holds _ _ _ _ _ _ holds]
      refine .batch _ _ _ _ _ books ?_ .refl
      rw [List.map_append, List.append_assoc]
      exact points_eq
    · rw [begin_of_not_holds _ _ _ _ _ _ holds]
      exact .halted _ _ _ _ _

theorem Booked.step {s s' : Sweeping σ} (inv : Booked l h pacing raised all s) (step : Step l h pacing raised s s') :
    Booked l h pacing raised all s' := by
  cases inv with
  | batch points total started t w books points_eq turns =>
    cases step with
    | turn _ _ _ _ _ _ w' turn => exact .batch _ _ _ _ _ books points_eq (turns.tail turn)
    | settle _ _ _ _ _ _ summary said stop uncut =>
      have completes : t.Completes l h pacing raised summary := ⟨uncut, w.now, said, w, turns, rfl, stop⟩
      exact .pause _ _ _ _ _ _ (books.concat completes) points_eq
    | cut _ _ _ _ _ _ summary said _ cut =>
      refine .stopped _ _ _ _ _ ?_
      show (total.interrupted || summary.interrupted) = true
      rw [cut, Bool.or_true]
  | pause points place total started since now books points_eq =>
    cases step with
    | pass => exact .pause _ _ _ _ _ _ books points_eq
    | skip => exact .stopped _ _ _ _ _ rfl
    | next => exact .begin books points_eq
  | done => cases step
  | halted => cases step
  | stopped => cases step

theorem Booked.steps {s s' : Sweeping σ} (inv : Booked l h pacing raised all s) (steps : Steps l h pacing raised s s') :
    Booked l h pacing raised all s' := by
  induction steps with
  | refl => exact inv
  | tail _ step ih => exact ih.step step

/-- A sweep that is over and was not interrupted has all of its batches in the books. -/
theorem Steps.books {now clock : Instant} {place : σ} {s : Sweeping σ}
    (steps : Steps l h pacing raised (Sweep.begin l h pacing all now place {} []) s) (ended : s.phase = .ended clock)
    (quiet : s.total.interrupted = false) :
    Books l h pacing raised s.started s.total ∧ s.started.map (·.point) = all := by
  have inv : Booked l h pacing raised all s := (Booked.begin ⟨[], .nil, rfl⟩ rfl).steps steps
  cases inv with
  | done _ _ _ _ books points_eq => exact ⟨books, points_eq⟩
  | stopped _ _ _ _ _ cut =>
    rw [cut] at quiet
    cases quiet
  | _ => cases ended

end Booked

end Sweep

/-! ## Sweeps -/

namespace ClientLaunch

open Sweep

variable {l : ClientLaunch} {h : Host σ} {pacing : Pacing} {raised : Option Instant}

theorem length_workers_started (started : List (Trial σ)) :
    (started.flatMap (·.workers l h)).length = started.length * l.topology.clientsPerVm.toNat := by
  rw [List.length_flatMap]
  simp only [Trial.length_workers, List.map_const', List.sum_replicate_nat]

/-- A sweep that is not interrupted, whatever it takes up first of what is ready at one
    instant, starts one batch for each point, and each of them accounts for one worker for
    each client of the VM. Each counter of the totals is the sum over the batches, modulo
    2 ^ 32. If fewer than 2 ^ 32 workers are started it is the sum itself, and the totals
    account for all workers. A run that returns is such a sweep. -/
theorem sweep_totals_add_up {t : Topology} {v : UInt32} {params : ClientParams} {targets : List UInt32}
    {trials : UInt32} (built : (build t v params targets trials).result = .ok l) (h : Host σ) (pacing : Pacing)
    (raised : Option Instant) (now : Instant) (place : σ) :
    let batches := targets.length * trials.toNat
    let workers := batches * t.clientsPerVm.toNat
    let begun := begin l h pacing l.runs now place {} []
    let ran := l.run h pacing raised now place
    (∀ s clock, Steps l h pacing raised begun s → s.phase = .ended clock → s.total.interrupted = false →
      s.started.map (·.point) = l.runs ∧ (s.started.flatMap (·.workers l h)).length = workers ∧
      ∃ summaries, List.Forall₂ (fun t s => t.Completes l h pacing raised s) s.started summaries ∧
        summaries.length = batches ∧
        (∀ b ∈ summaries, b.launched.toNat = t.clientsPerVm.toNat ∧
          b.succeeded.toNat + b.failed.toNat + b.startFailed.toNat + b.timedOut.toNat = b.launched.toNat) ∧
        (∀ c : Counter, (c.total s.total).toNat = c.sum summaries % UInt32.size) ∧
        s.total.batches.toNat = batches % UInt32.size ∧ s.total.launched.toNat = workers % UInt32.size ∧
        (workers < UInt32.size → (∀ c : Counter, (c.total s.total).toNat = c.sum summaries) ∧
          s.total.batches.toNat = batches ∧ s.total.launched.toNat = workers ∧
          s.total.succeeded.toNat + s.total.failed.toNat + s.total.startFailed.toNat + s.total.timedOut.toNat =
            workers)) ∧
    (h.Forward → ∀ total, ran.result = .ok total → ∃ s, Steps l h pacing raised begun s ∧
      s.phase = .ended ran.clock ∧ s.total = total ∧ workersOf ran.acts = s.started.flatMap (·.workers l h)) := by
  intro batches workers begun ran
  obtain ⟨-, slice, -, -, -, rfl⟩ := build_eq_ok_iff.mp built
  obtain ⟨trials_pos, -⟩ := points_of_built built
  refine ⟨fun s clock steps ended quiet => ?_, fun forward total hok => ?_⟩
  · obtain ⟨books, points_eq⟩ := Steps.books steps ended quiet
    obtain ⟨summaries, each, htotal, length, launched_eq, accounts⟩ := books.summaries
    have started : s.started.length = batches := by
      rw [← List.length_map (·.point), points_eq, length_runs]
      rfl
    have batches_sum : Counter.batches.sum summaries = batches := by
      rw [Counter.sum_batches, length, started]
    have launched_sum : Counter.launched.sum summaries = workers := by
      rw [Counter.sum_launched launched_eq, length, started]
    have wraps (c : Counter) : (c.total s.total).toNat = c.sum summaries % UInt32.size := by
      rw [htotal]
      exact c.toNat_totals summaries
    refine ⟨points_eq, by rw [length_workers_started, started], summaries, each, length.trans started,
      fun b hb => ⟨launched_eq b hb, accounts b hb⟩, wraps, ?_, ?_, fun fits => ?_⟩
    · rw [← batches_sum]
      exact wraps .batches
    · rw [← launched_sum]
      exact wraps .launched
    have whole (c : Counter) : (c.total s.total).toNat = c.sum summaries := by
      have le := Counter.sum_le t.clientsPerVm_pos launched_eq accounts c
      rw [length, started] at le
      rw [wraps, Nat.mod_eq_of_lt (Nat.lt_of_le_of_lt le fits)]
    refine ⟨whole, (whole .batches).trans batches_sum, (whole .launched).trans launched_sum, ?_⟩
    rw [← launched_sum, ← Counter.sum_accounts accounts, ← whole, ← whole, ← whole, ← whole]
    rfl
  · obtain ⟨s, steps, ended, -, htotal, workers_eq⟩ :=
      runFrom_ended (k := 0) forward trials_pos (Nat.zero_add _) [] rfl hok
    exact ⟨s, steps, ended, htotal, workers_eq.symm⟩

/-- Two targets and two trials of each with two clients: of four workers in a row one
    succeeds, one is killed at the very deadline, one never runs and one hangs. All eight
    are accounted for. -/
theorem sweep_totals_add_up_mixed :
    ∃ l total, (build ⟨2, 2, 1, 1, by decide, by decide, by decide, by decide⟩ 0
        ⟨"client", "::1", 8000, 2, default, none, 1, 10, ".", "s"⟩ [7, 9] 2).result = .ok l ∧
      (l.run (Host.scripted [⟨5, some (.exited (some 0))⟩, ⟨25, some (.exited none)⟩,
        ⟨0, some (.notStarted "no such program")⟩, ⟨0, none⟩]) { timeout := some 25 } none 0 0).result = .ok total ∧
      total.batches.toNat = 4 ∧ total.succeeded.toNat + total.failed.toNat + total.startFailed.toNat +
        total.timedOut.toNat = 8 := by
  obtain ⟨l, hl, built⟩ : ∃ l, l = _ ∧ (build ⟨2, 2, 1, 1, by decide, by decide, by decide, by decide⟩ 0
      ⟨"client", "::1", 8000, 2, default, none, 1, 10, ".", "s"⟩ [7, 9] 2).result = .ok l := ⟨_, rfl, rfl⟩
  let h := Host.scripted [⟨5, some (.exited (some 0))⟩, ⟨25, some (.exited none)⟩,
    ⟨0, some (.notStarted "no such program")⟩, ⟨0, none⟩]
  have forward : h.Forward := Host.scripted_forward _
  have holds : ∀ t ∈ (l.timetable h { timeout := some 25 } l.runs 0 0).trials,
      ({ timeout := some 25 } : Pacing).Holds t.start := by
    subst hl
    decide
  obtain ⟨⟨total, hok, quiet⟩, -, -⟩ := l.run_unflagged { timeout := some 25 } 0 0 forward (fun _ => rfl)
    (points_of_built built).1 holds fun _ _ => Pacing.span?_isSome.mpr (.inl rfl)
  obtain ⟨all, ofRun⟩ := sweep_totals_add_up built h { timeout := some 25 } none 0 0
  obtain ⟨s, steps, ended, rfl, -⟩ := ofRun forward total hok
  obtain ⟨-, -, summaries, -, -, -, -, -, -, whole⟩ := all s _ steps ended quiet
  obtain ⟨-, batches, -, workers⟩ := whole (by decide)
  exact ⟨l, s.total, built, hok, batches, workers⟩

/-- A launch that is accepted and whose totals do not show what it did: it starts twice
    2 ^ 32 - 1 batches, and the totals show 2 ^ 32 - 2. -/
theorem totals_wrap :
    ∃ l total, (build ⟨1, 1, 1, 1, by decide, by decide, by decide, by decide⟩ 0
        ⟨"client", "::1", 8000, 2, default, none, 1, 10, ".", "s"⟩ [7, 9] 4294967295).result = .ok l ∧
      (l.run Host.dryRun { settle := 0 } none 0 ()).result = .ok total ∧ total.interrupted = false ∧
      l.targets.length * l.trials.toNat = 8589934590 ∧ total.batches.toNat = 4294967294 := by
  obtain ⟨l, hl, built⟩ : ∃ l, l = _ ∧ (build ⟨1, 1, 1, 1, by decide, by decide, by decide, by decide⟩ 0
      ⟨"client", "::1", 8000, 2, default, none, 1, 10, ".", "s"⟩ [7, 9] 4294967295).result = .ok l := ⟨_, rfl, rfl⟩
  have points : l.targets.length * l.trials.toNat = 8589934590 := by rw [hl]; decide
  obtain ⟨pos, -⟩ := points_of_built built
  obtain ⟨⟨total, hok, quiet⟩, -, -⟩ := l.run_unflagged { settle := 0 } 0 () Host.dryRun_forward (fun _ => rfl) pos
    (fun _ _ _ h => by cases h) fun t _ => by rw [t.span?_dryRun]; rfl
  obtain ⟨s, steps, ended, -, rfl, -⟩ :=
    runFrom_ended (k := 0) Host.dryRun_forward pos (Nat.zero_add _) [] rfl hok
  obtain ⟨books, points_eq⟩ := Steps.books steps ended quiet
  obtain ⟨summaries, -, htotal, length, -, -⟩ := books.summaries
  refine ⟨l, s.total, built, hok, quiet, points, ?_⟩
  have count : summaries.length = 8589934590 := by
    rw [length, ← List.length_map (·.point), points_eq, List.drop_zero, length_runs]
    exact points
  have wraps := Counter.toNat_totals .batches summaries
  rw [← htotal, Counter.sum_batches, count] at wraps
  exact wraps

end ClientLaunch

end Fleet

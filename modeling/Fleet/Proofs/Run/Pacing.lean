/-
  Fleet.Proofs.Run.Pacing — a sweep that nobody asks to stop keeps to its timetable, whatever
  is taken up first of what is ready at one instant: a barrier and a pause lie between any
  two of its batches.
-/

import Fleet.Proofs.Run.Refinement
import Fleet.Run.Session
import Mathlib.Algebra.Order.BigOperators.Group.List
import Mathlib.Algebra.Order.Group.Nat

namespace Fleet

variable {σ : Type}

/-! ## Hosts -/

namespace Host

theorem dryRun_forward : dryRun.Forward := by
  rintro place now c time ending ⟨⟩
  exact Nat.le_refl _

theorem scripted_forward (script : List Part) : (scripted script).Forward := by
  intro number now c time ending hf
  simp only [scripted] at hf
  split at hf <;> cases hf
  exact Nat.le_add_right _ _

end Host

namespace Sweep

variable {l : ClientLaunch} {h : Host σ} {pacing : Pacing} {table : Timetable σ}

theorem OnTime.live_of_spans {raised : Option Instant} {s : Sweeping σ} (inv : OnTime l h pacing raised table s)
    (holds : ∀ t ∈ table.trials, pacing.Holds t.start) (spans : ∀ t ∈ table.trials, (t.span? l h pacing).isSome) :
    s.Live l h pacing raised :=
  inv.live (fun t ht => holds t (inv.prefix_of_table.subset ht)) fun t ht =>
    comes_of_span? (spans t (inv.prefix_of_table.subset ht))

theorem OnTime.unflagged (unasked : ∀ place, h.asked place = none) {s : Sweeping σ} {clock : Instant}
    (inv : OnTime l h pacing none table s) (ended : s.phase = .ended clock) :
    s.total.interrupted = false ∧ s.started = table.trials ∧ table.back = some clock := by
  rcases inv.ended ended with ⟨-, u, hu, -⟩ | ⟨quiet, rfl⟩
  · rw [Host.flag, unasked] at hu
    cases hu
  · exact ⟨quiet, rfl, rfl⟩

end Sweep

theorem ClientLaunch.run_unflagged (l : ClientLaunch) {h : Host σ} (pacing : Pacing) (now : Instant) (place : σ)
    (forward : h.Forward) (unasked : ∀ place, h.asked place = none) (pos : 0 < l.trials.toNat)
    (holds : ∀ t ∈ (l.timetable h pacing l.runs now place).trials, pacing.Holds t.start)
    (spans : ∀ t ∈ (l.timetable h pacing l.runs now place).trials, (t.span? l h pacing).isSome) :
    (∃ total, (l.run h pacing none now place).result = .ok total ∧ total.interrupted = false) ∧
      workersOf (l.run h pacing none now place).acts =
        (l.timetable h pacing l.runs now place).trials.flatMap (·.workers l h) ∧
      (l.timetable h pacing l.runs now place).back = some (l.run h pacing none now place).clock := by
  obtain ⟨s, steps, hok, ended, -, workers⟩ := run_ended forward pos fun s steps =>
    (steps.onTime forward).live_of_spans holds spans
  obtain ⟨quiet, hstarted, hback⟩ := (steps.onTime forward).unflagged unasked ended
  exact ⟨⟨s.total, hok, quiet⟩, by rw [workers, hstarted], hback⟩

/-! ## Spans and pauses -/

def Timetable.Held (table : Timetable σ) (l : ClientLaunch) (h : Host σ) (pacing : Pacing) : Prop :=
  ∀ t ∈ table.trials, pacing.Holds t.start ∧
    ∀ length ∈ t.span? l h pacing, t.start + length + pacing.settle < Clock.horizon

theorem Trial.over_of_until? {l : ClientLaunch} {h : Host σ} {pacing : Pacing} {t : Trial σ} {time : Instant}
    (held : ∀ length ∈ t.span? l h pacing, t.start + length + pacing.settle < Clock.horizon)
    (hu : t.until? l h pacing = some time) :
    ∃ length, t.span? l h pacing = some length ∧ time = t.start + length + pacing.settle := by
  obtain ⟨length, hs, rfl⟩ := Option.map_eq_some_iff.mp hu
  exact ⟨length, hs, Clock.pauseEnd_eq (held length hs)⟩

namespace ClientLaunch

open Sweep

variable {l : ClientLaunch} {h : Host σ} {pacing : Pacing} {points : List ExperimentRun} {now : Instant} {place : σ}

theorem timetable_spaced (held : (l.timetable h pacing points now place).Held l h pacing) :
    (l.timetable h pacing points now place).trials.IsChain fun a b => ∃ length, a.span? l h pacing = some length ∧
      b.start = a.start + length + pacing.settle :=
  timetable_isChain.imp_of_mem_imp fun a _ ha _ hu => Trial.over_of_until? (held a ha).2 hu

/-- Without a timeout every worker has ended, and the pause has passed, before a worker of a
    later batch starts. -/
theorem timetable_barrier (forward : h.Forward) (held : (l.timetable h pacing points now place).Held l h pacing)
    (untimed : pacing.timeout = none) :
    (l.timetable h pacing points now place).trials.Pairwise fun a b => ∀ w ∈ a.workers l h, ∃ u, w.endTime? = some u ∧
      u + pacing.settle ≤ b.start := by
  refine timetable_pairwise.imp_of_mem fun {a b} ha _ => ?_
  rintro ⟨time, hu, le⟩ w hw
  obtain ⟨length, hs, rfl⟩ := Trial.over_of_until? (held a ha).2 hu
  rw [Trial.span?, Pacing.span?, untimed] at hs
  obtain ⟨m, hm, hle⟩ := length?_le_longest? hs w hw
  obtain ⟨u, hend, rfl⟩ := Option.map_eq_some_iff.mp hm
  have hstart := a.started_of_mem_workers l h w hw
  have ahead := forward.ahead w hw u hend
  exact ⟨u, hend, by lia⟩

theorem timetable_back_le {back : Instant} {length : Nat}
    (held : (l.timetable h pacing points now place).Held l h pacing)
    (hback : (l.timetable h pacing points now place).back = some back) (timed : pacing.timeout = some length) :
    back ≤ now + points.length * (length + pacing.settle) := by
  rw [timetable_back_sum (fun t ht => (held t ht).2) hback]
  refine Nat.add_le_add_left ?_ now
  have each : ∀ x ∈ (l.timetable h pacing points now place).trials.map (fun t =>
      (t.span? l h pacing).getD 0 + pacing.settle), x ≤ length + pacing.settle := by
    intro x hx
    obtain ⟨t, -, rfl⟩ := List.mem_map.mp hx
    refine Nat.add_le_add_right ?_ _
    cases hs : t.span? l h pacing with
    | none => exact Nat.zero_le _
    | some e => exact Pacing.span?_le_timeout timed hs
  have total := List.sum_le_card_nsmul _ _ each
  have comes : (l.timetable h pacing points now place).back.isSome := hback ▸ rfl
  have count := congrArg List.length (timetable_points comes)
  rwa [List.length_map, ← List.length_map (·.point), count, Nat.nsmul_eq_mul] at total

/-! ## Sweeps -/

/-- A sweep that nobody asks to stop returns, if the clock holds its deadlines and its pauses
    and every batch has a timeout or workers that all end. Every point is then one batch:
    its workers are all started at one instant, the first batch on entry, and each one more
    when the last worker of the one before has ended or its timeout has passed, and then the
    pause. The last batch has such a pause behind it too. So does every run of the system,
    whatever it takes up first of what is ready at one instant. -/
theorem sweep_keeps_timetable {t : Topology} {v : UInt32} {params : ClientParams} {targets : List UInt32}
    {trials : UInt32} {l : ClientLaunch} (built : (build t v params targets trials).result = .ok l) (h : Host σ)
    (forward : h.Forward) (unasked : ∀ place, h.asked place = none) (pacing : Pacing) (now : Instant) (place : σ)
    (ends : pacing.timeout.isSome ∨ ∀ t ∈ (l.timetable h pacing l.runs now place).trials, ∀ w ∈ t.workers l h,
      w.endTime?.isSome)
    (held : (l.timetable h pacing l.runs now place).Held l h pacing) :
    let trials := (l.timetable h pacing l.runs now place).trials
    let begun := begin l h pacing l.runs now place {} []
    let ran := l.run h pacing none now place
    (∃ total, ran.result = .ok total ∧ total.interrupted = false) ∧
    workersOf ran.acts = trials.flatMap (·.workers l h) ∧
    trials.map (·.point) = l.runs ∧
    (∀ t ∈ trials, (t.workers l h).map (·.slot) = (l.commandsFor t.point.target).map (·.slot) ∧
      ∀ w ∈ t.workers l h, w.started = t.start) ∧
    (∀ t ∈ trials.head?, t.start = now) ∧
    trials.IsChain (fun a b => ∃ length, a.span? l h pacing = some length ∧
      b.start = a.start + length + pacing.settle) ∧
    (∀ t ∈ trials.getLast?, ∃ length, t.span? l h pacing = some length ∧
      ran.clock = t.start + length + pacing.settle) ∧
    ran.clock = now + (trials.map fun t => (t.span? l h pacing).getD 0 + pacing.settle).sum ∧
    (pacing.timeout = none → trials.Pairwise fun a b => ∀ w ∈ a.workers l h, ∃ u, w.endTime? = some u ∧
      u + pacing.settle ≤ b.start) ∧
    (∀ length ∈ pacing.timeout, ran.clock ≤ now + l.targets.length * l.trials.toNat * (length + pacing.settle)) ∧
    Terminates l h pacing none begun ∧
    ∀ s clock, Steps l h pacing none begun s → s.phase = .ended clock →
      clock = ran.clock ∧ s.started = trials ∧ s.total.interrupted = false := by
  intro trials begun ran
  obtain ⟨pos, -⟩ := points_of_built built
  have holds : ∀ t ∈ trials, pacing.Holds t.start := fun t ht => (held t ht).1
  have spans : ∀ t ∈ trials, (t.span? l h pacing).isSome :=
    fun t ht => Pacing.span?_isSome.mpr (ends.imp_right fun all => all t ht)
  obtain ⟨hok, workers, hback⟩ := l.run_unflagged pacing now place forward unasked pos holds spans
  refine ⟨hok, workers, timetable_points (hback ▸ rfl), fun t _ => ⟨?_, ?_⟩, timetable_head, timetable_spaced held,
    fun t ht => ?_, timetable_back_sum (fun t ht => (held t ht).2) hback, timetable_barrier forward held,
    fun length timed => ?_, terminates forward rfl fun s steps => (steps.onTime forward).live_of_spans holds spans,
    fun s clock steps ended => ?_⟩
  · exact h.map_slot_batchWorkers t.start t.place _
  · exact t.started_of_mem_workers l h
  · refine Trial.over_of_until? (held t (List.mem_of_getLast? ht)).2 ?_
    rw [← timetable_back t ht, hback]
  · have le := timetable_back_le held hback timed
    rwa [length_runs] at le
  · obtain ⟨quiet, hstarted, hback'⟩ := (steps.onTime forward).unflagged unasked ended
    exact ⟨Option.some.inj (hback'.symm.trans hback), hstarted, quiet⟩

/-- Two targets and one trial of each: one worker fails after 10 and one hangs until the
    timeout of 25, twice, with a pause of 100 behind each. -/
theorem sweep_keeps_timetable_hung :
    ∃ l, (build ⟨2, 2, 1, 1, by decide, by decide, by decide, by decide⟩ 0
        ⟨"client", "::1", 8000, 2, default, none, 1, 10, ".", "s"⟩ [7, 9] 1).result = .ok l ∧
      (l.run (Host.scripted [⟨10, some (.exited (some 1))⟩, ⟨0, none⟩]) { settle := 100, timeout := some 25 }
        none 5 0).clock = 255 := by
  obtain ⟨l, hl, built⟩ : ∃ l, l = _ ∧ (build ⟨2, 2, 1, 1, by decide, by decide, by decide, by decide⟩ 0
      ⟨"client", "::1", 8000, 2, default, none, 1, 10, ".", "s"⟩ [7, 9] 1).result = .ok l := ⟨_, rfl, rfl⟩
  let h := Host.scripted [⟨10, some (.exited (some 1))⟩, ⟨0, none⟩]
  have held : (l.timetable h { settle := 100, timeout := some 25 } l.runs 5 0).Held l h
      { settle := 100, timeout := some 25 } := by
    subst hl
    unfold Timetable.Held
    decide
  obtain ⟨-, -, -, -, -, -, -, sum, -⟩ := sweep_keeps_timetable built h (Host.scripted_forward _) (fun _ => rfl)
    { settle := 100, timeout := some 25 } 5 0 (.inl rfl) held
  refine ⟨l, built, ?_⟩
  rw [sum]
  subst hl
  decide

end ClientLaunch

end Fleet

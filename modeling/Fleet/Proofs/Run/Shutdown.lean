/-
  Fleet.Proofs.Run.Shutdown — what a raised shutdown flag does to a sweep, whatever is taken
  up first of what is ready at one instant.

  `Rises`: the flag goes up at one instant, raised from outside or by a worker.
  `shutdown_stops_sweep`: if that is before the sweep would have been over by itself, the
  sweep is over at once and is interrupted; no batch is started later, and one batch that is
  started with the flag up is followed by another only if it was over as it was started and
  there are no pauses. Such batches there can be (`Sweep.idle_run`): each wait is a tie
  between the flag and what is waited for, and the flag can lose every one of them.
-/

import Fleet.Proofs.Run.Pacing

namespace Fleet

variable {σ : Type}

/-! ## Without the signal -/

def Host.unasked (h : Host σ) : Host σ := { h with asked := fun _ => none }

theorem Host.Forward.unasked {h : Host σ} (forward : h.Forward) : h.unasked.Forward := forward

theorem Host.start_unasked (h : Host σ) : h.unasked.start = h.start := rfl

theorem Host.startAll_unasked (h : Host σ) (now : Instant) (place : σ) (commands : List Command) :
    h.unasked.startAll now place commands = h.startAll now place commands := by
  induction commands generalizing place with
  | nil => rfl
  | cons c rest ih => simp only [startAll, start_unasked, ih]

namespace Trial

variable (t : Trial σ) (l : ClientLaunch) (h : Host σ) (pacing : Pacing)

theorem workers_unasked : t.workers l h.unasked = t.workers l h := by
  simp only [workers, Host.batchWorkers, Host.startAll_unasked]

theorem after_unasked : t.after l h.unasked = t.after l h := by
  simp only [after, Host.startAll_unasked]

theorem span?_unasked : t.span? l h.unasked pacing = t.span? l h pacing := by
  simp only [span?, workers_unasked]

theorem until?_unasked : t.until? l h.unasked pacing = t.until? l h pacing := by
  simp only [until?, span?_unasked]

end Trial

theorem ClientLaunch.timetable_unasked (l : ClientLaunch) (h : Host σ) (pacing : Pacing) (points : List ExperimentRun)
    (now : Instant) (place : σ) :
    l.timetable h.unasked pacing points now place = l.timetable h pacing points now place := by
  induction points generalizing now place with
  | nil => rfl
  | cons r points ih => simp only [timetable, Trial.until?_unasked, Trial.after_unasked, ih]

namespace Sweep

variable {l : ClientLaunch} {h : Host σ} {pacing : Pacing} {raised : Option Instant}

theorem holds_begin {points : List ExperimentRun} {now : Instant} {place : σ} {total : SweepSummary}
    {started : List (Trial σ)} (all : ∀ t ∈ started, pacing.Holds t.start) :
    (∃ t, (begin l h pacing points now place total started).phase = .halted t) ∨
      ∀ t ∈ (begin l h pacing points now place total started).started, pacing.Holds t.start := by
  cases points with
  | nil => exact .inr all
  | cons r points =>
    by_cases holds : pacing.Holds now
    · rw [begin_of_holds _ _ _ _ _ _ holds]
      exact .inr (List.forall_mem_append.mpr ⟨all, List.forall_mem_singleton.mpr holds⟩)
    · rw [begin_of_not_holds _ _ _ _ _ _ holds]
      exact .inl ⟨_, rfl⟩

theorem Steps.holds {points : List ExperimentRun} {now : Instant} {place : σ} {s : Sweeping σ}
    (steps : Steps l h pacing raised (begin l h pacing points now place {} []) s) :
    (∃ t, s.phase = .halted t) ∨ ∀ t ∈ s.started, pacing.Holds t.start := by
  induction steps with
  | refl => exact holds_begin nofun
  | @tail s s' _ step ih =>
    have all : ∀ t ∈ s.started, pacing.Holds t.start :=
      ih.resolve_left fun ⟨t, halted⟩ => by cases step <;> cases halted
    cases step with
    | next => exact holds_begin all
    | _ => exact .inr all

/-- A sweep is interrupted only with the flag up. -/
theorem Steps.due (forward : h.Forward) {points : List ExperimentRun} {now clock : Instant} {place : σ}
    {s : Sweeping σ} (steps : Steps l h pacing raised (begin l h pacing points now place {} []) s)
    (ended : s.phase = .ended clock) (cut : s.total.interrupted = true) : Due (h.flag raised s.place) clock := by
  rcases (steps.onTime forward).ended ended with ⟨-, due⟩ | ⟨uncut, -⟩
  · exact due
  · rw [cut] at uncut
    cases uncut

/-- A sweep that is over and was not interrupted is over when it would have been with no
    shutdown at all. -/
theorem Steps.ended_unasked (forward : h.Forward) (pos : 0 < l.trials.toNat) {now clock : Instant} {place : σ}
    {s : Sweeping σ} (steps : Steps l h pacing raised (begin l h pacing l.runs now place {} []) s)
    (ended : s.phase = .ended clock) (quiet : s.total.interrupted = false) :
    (∃ total, (l.run h.unasked pacing none now place).result = .ok total) ∧
      (l.run h.unasked pacing none now place).clock = clock := by
  obtain ⟨cut, -⟩ | ⟨-, htable⟩ := (steps.onTime forward).ended ended
  · rw [quiet] at cut
    cases cut
  -- it has been through the whole timetable, so each of its batches has a deadline that the
  -- clock holds and comes to an end, with no shutdown too
  have holds := steps.holds.resolve_left fun ⟨t, halted⟩ => by rw [ended] at halted; cases halted
  have back : (l.timetable h pacing l.runs now place).back.isSome := by rw [← htable]; rfl
  have spans := ClientLaunch.span?_isSome_of_back back
  have hsame := l.timetable_unasked h pacing l.runs now place
  obtain ⟨⟨total, hok, -⟩, -, hback⟩ := l.run_unflagged pacing now place forward.unasked (fun _ => rfl) pos
    (by rw [hsame, ← htable]; exact holds)
    (by rw [hsame]; exact fun t ht => t.span?_unasked l h pacing ▸ spans t ht)
  rw [hsame, ← htable] at hback
  exact ⟨⟨total, hok⟩, (Option.some.inj hback).symm⟩

/-! ## With the flag up -/

/-- The flag goes up at `z`, raised from outside or by a worker: a sweep in which nobody has
    been started yet who raises it is not past `z`, and does not wait in vain. -/
def Rises (l : ClientLaunch) (h : Host σ) (pacing : Pacing) (raised : Option Instant) (begun : Sweeping σ)
    (z : Instant) : Prop :=
  ∀ s, Steps l h pacing raised begun s → h.flag raised s.place = some z ∨
    h.flag raised s.place = none ∧ s.clock ≤ z ∧ s.Live l h pacing raised

theorem rises_from_outside (unasked : ∀ place, h.asked place = none) (begun : Sweeping σ) (z : Instant) :
    Rises l h pacing (some z) begun z := by
  intro s _
  rw [Host.flag, unasked]
  exact .inl rfl

variable {points : List ExperimentRun} {now z : Instant} {place : σ} {s : Sweeping σ}

theorem Rises.clock_le (rises : Rises l h pacing raised (begin l h pacing points now place {} []) z)
    (steps : Steps l h pacing raised (begin l h pacing points now place {} []) s) : s.clock ≤ max z now := by
  induction steps with
  | refl =>
    rw [clock_begin]
    exact Nat.le_max_right _ _
  | @tail s s' steps step ih =>
    -- the flag may get known only with a new place, and where the place changes the clock
    -- stands still
    obtain ⟨-, upto, same | stands⟩ := step.clock
    · rcases rises s' (.tail steps step) with flag | ⟨-, le, -⟩
      · have := upto z (same ▸ flag)
        lia
      · exact Nat.le_trans le (Nat.le_max_left _ _)
    · rwa [stands]

theorem Rises.between (rises : Rises l h pacing raised (begin l h pacing points now place {} []) z)
    (steps : Steps l h pacing raised (begin l h pacing points now place {} []) s) :
    ∀ t ∈ s.started, now ≤ t.start ∧ t.start ≤ max z now := by
  intro t ht
  have le := rises.clock_le steps
  rcases steps.started t ht with ht | between
  · rcases started_begin _ _ _ _ _ t ht with ht | rfl
    · cases ht
    · exact ⟨Nat.le_refl _, Nat.le_max_right _ _⟩
  · rw [clock_begin] at between
    exact ⟨between.1, Nat.le_trans between.2 le⟩

theorem Rises.live (forward : h.Forward) (rises : Rises l h pacing raised (begin l h pacing points now place {} []) z)
    (holds : pacing.Holds (max z now)) (steps : Steps l h pacing raised (begin l h pacing points now place {} []) s) :
    s.Live l h pacing raised := by
  rcases rises s steps with flag | ⟨-, -, live⟩
  · exact (steps.onTime forward).live (fun t ht => holds.mono (rises.between steps t ht).2) fun t _ =>
      comes_of_cut (c := .shutdown) flag
  · exact live

/-- A batch that is started with the flag up is the last, unless it takes no time and
    neither do the pauses. -/
theorem Rises.last (forward : h.Forward) (rises : Rises l h pacing raised (begin l h pacing points now place {} []) z)
    (steps : Steps l h pacing raised (begin l h pacing points now place {} []) s) :
    s.started.Pairwise fun a _ => z ≤ a.start → a.span? l h pacing = some 0 ∧ pacing.settle = 0 := by
  have apart := ClientLaunch.timetable_pairwise.sublist (steps.onTime forward).prefix_of_table.sublist
  refine apart.imp_of_mem fun {a b} ha hb => ?_
  rintro ⟨time, hu, le⟩ late
  have hb := (rises.between steps b hb).2
  have ha := (rises.between steps a ha).1
  exact Trial.instant_of_until? hu (by lia)

/-- A sweep that would be over later with no shutdown, or never, is over with the flag. -/
theorem Rises.stops (forward : h.Forward) (pos : 0 < l.trials.toNat)
    (rises : Rises l h pacing raised (begin l h pacing l.runs now place {} []) z)
    (later : ∀ total, (l.run h.unasked pacing none now place).result = .ok total →
      max z now < (l.run h.unasked pacing none now place).clock)
    (steps : Steps l h pacing raised (begin l h pacing l.runs now place {} []) s) {clock : Instant}
    (ended : s.phase = .ended clock) : s.total.interrupted = true ∧ clock = max z now := by
  have hclock : s.clock = clock := by rw [Sweeping.clock, ended]
  have le := rises.clock_le steps
  have ge := Steps.clock_le steps
  rw [clock_begin] at ge
  cases cut : s.total.interrupted with
  | false =>
    obtain ⟨⟨total, hok⟩, hquiet⟩ := steps.ended_unasked forward pos ended cut
    have := later total hok
    lia
  | true =>
    obtain ⟨u, hu, hle⟩ := steps.due forward ended cut
    rcases rises s steps with flag | ⟨flag, -⟩
    · obtain rfl : z = u := Option.some.inj (flag.symm.trans hu)
      exact ⟨rfl, by lia⟩
    · rw [flag] at hu
      cases hu

end Sweep

namespace ClientLaunch

open Sweep

/-- A flag that goes up at `z` stops a sweep whose deadlines the clock holds until then,
    whatever is taken up first of what is ready at one instant. The sweep comes to an end.
    The batches that are started with the flag up are started at one instant, that of the
    flag or of the entry, and each of them is the last, unless it is over as it is started
    and there are no pauses. If that instant is before the sweep would have been over with
    no shutdown, or if that would never have been, the sweep is over at it and interrupted.

    A sweep is interrupted only with the flag up; otherwise it is over when it would have
    been with no shutdown. -/
theorem shutdown_stops_sweep {t : Topology} {v : UInt32} {params : ClientParams} {targets : List UInt32}
    {trials : UInt32} {l : ClientLaunch} (built : (build t v params targets trials).result = .ok l) (h : Host σ)
    (forward : h.Forward) (pacing : Pacing) (raised : Option Instant) (now : Instant) (place : σ) :
    let begun := begin l h pacing l.runs now place {} []
    let ran := l.run h pacing raised now place
    let quiet := l.run h.unasked pacing none now place
    (∀ z, Rises l h pacing raised begun z → pacing.Holds (max z now) →
      Terminates l h pacing raised begun ∧
      (∀ s, Steps l h pacing raised begun s → (∀ t ∈ s.started, z ≤ t.start → t.start = max z now) ∧
        s.started.Pairwise fun a _ => z ≤ a.start → a.span? l h pacing = some 0 ∧ pacing.settle = 0) ∧
      ((∀ total, quiet.result = .ok total → max z now < quiet.clock) →
        (∀ s clock, Steps l h pacing raised begun s → s.phase = .ended clock →
          s.total.interrupted = true ∧ clock = max z now) ∧
        ∃ total, ran.result = .ok total ∧ total.interrupted = true ∧ ran.clock = max z now)) ∧
    (∀ s clock, Steps l h pacing raised begun s → s.phase = .ended clock →
      (s.total.interrupted = true → Due (h.flag raised s.place) clock) ∧
      (s.total.interrupted = false → (∃ total, quiet.result = .ok total) ∧ quiet.clock = clock)) ∧
    ∀ total, ran.result = .ok total → ∃ s, Steps l h pacing raised begun s ∧ s.phase = .ended ran.clock ∧
      s.place = ran.place ∧ s.total = total ∧ workersOf ran.acts = s.started.flatMap (·.workers l h) := by
  intro begun ran quiet
  obtain ⟨pos, -⟩ := points_of_built built
  refine ⟨fun z rises holds => ?_,
    fun s clock steps ended => ⟨steps.due forward ended, steps.ended_unasked forward pos ended⟩, fun total hok => ?_⟩
  · have live : ∀ s, Steps l h pacing raised begun s → s.Live l h pacing raised :=
      fun s steps => rises.live forward holds steps
    refine ⟨terminates forward rfl live, fun s steps => ⟨fun t ht late => ?_, rises.last forward steps⟩,
      fun later => ?_⟩
    · have := rises.between steps t ht
      lia
    · obtain ⟨s, steps, hok, ended, -⟩ := run_ended forward pos live
      exact ⟨fun s clock steps ended => rises.stops forward pos later steps ended, s.total, hok,
        rises.stops forward pos later steps ended⟩
  · obtain ⟨s, steps, ended, hplace, htotal, workers⟩ := runFrom_ended forward pos (Nat.zero_add l.runCount) [] rfl hok
    exact ⟨s, steps, ended, hplace, htotal, workers.symm⟩

/-- Two targets, a pause of ten seconds, and a flag that goes up in the middle of the first
    pause. -/
theorem shutdown_stops_sweep_pausing :
    ∃ l, (build ⟨2, 2, 1, 1, by decide, by decide, by decide, by decide⟩ 0
        ⟨"client", "::1", 8000, 2, default, none, 1, 10, ".", "s"⟩ [7, 9] 1).result = .ok l ∧
      ∃ total, (l.run Host.dryRun { settle := 10000 } (some 5000) 0 ()).result = .ok total ∧
        total.interrupted = true ∧ (l.run Host.dryRun { settle := 10000 } (some 5000) 0 ()).clock = 5000 := by
  obtain ⟨l, hl, built⟩ : ∃ l, l = _ ∧ (build ⟨2, 2, 1, 1, by decide, by decide, by decide, by decide⟩ 0
      ⟨"client", "::1", 8000, 2, default, none, 1, 10, ".", "s"⟩ [7, 9] 1).result = .ok l := ⟨_, rfl, rfl⟩
  obtain ⟨stops, -⟩ := shutdown_stops_sweep built Host.dryRun Host.dryRun_forward { settle := 10000 } (some 5000) 0 ()
  obtain ⟨-, -, stopped⟩ := stops 5000 (rises_from_outside (fun _ => rfl) _ _) (by decide)
  refine ⟨l, built, (stopped fun _ _ => ?_).2⟩
  obtain ⟨-, -, back⟩ := l.run_unflagged { settle := 10000 } 0 () Host.dryRun_forward.unasked (fun _ => rfl)
    (points_of_built built).1 (by subst hl; decide) (by subst hl; decide)
  have whole : (l.timetable Host.dryRun.unasked { settle := 10000 } l.runs 0 ()).back = some 20000 := by
    subst hl
    decide
  rw [← Option.some.inj (whole.symm.trans back)]
  decide

end ClientLaunch

/-! ## Ties -/

namespace Sweep

/-- The flag can lose every tie: a sweep with no pauses whose batches are given up as they
    are started can go through all of its points, whenever the flag goes up. -/
theorem idle_run (l : ClientLaunch) (h : Host σ) (raised : Option Instant) (now : Instant) (held : now < Clock.horizon)
    (points : List ExperimentRun) (place : σ) (total : SweepSummary) (started : List (Trial σ))
    (quiet : total.interrupted = false) :
    ∃ s, Steps l h { settle := 0, timeout := some 0 } raised
        (begin l h { settle := 0, timeout := some 0 } points now place total started) s ∧
      s.phase = .ended now ∧ s.total.interrupted = false ∧
      s.started.map (·.start) = started.map (·.start) ++ points.map fun _ => now := by
  induction points generalizing place total started with
  | nil => exact ⟨_, .refl, rfl, quiet, (List.append_nil _).symm⟩
  | cons r points ih =>
    let t : Trial σ := ⟨r, now, place⟩
    have holds : ({ settle := 0, timeout := some 0 } : Pacing).Holds now := by rintro _ ⟨⟩; exact held
    have due : Due (some now) now := ⟨now, rfl, Nat.le_refl _⟩
    let summary := (Cut.close (t.workers l h).length { launched := .ofNat (t.commands l).length } .deadline).2
    obtain ⟨s, steps, ended, uncut, starts⟩ := ih (t.after l h) (total.absorb summary) (started ++ [t])
      (absorb_interrupted _ _ quiet)
    refine ⟨s, ?_, ended, uncut, ?_⟩
    · rw [begin_of_holds _ _ _ _ _ _ holds]
      refine .head (.settle _ _ _ _ _ _ _ _ (.cut _ .deadline due) rfl) (.head (.next _ _ _ _ _ _ ?_) steps)
      exact Nat.le_of_eq (Clock.pauseEnd_eq held)
    · rw [starts]
      simp [t]

/-- The flag is up before the sweep is entered, and yet two batches are started and the
    sweep is not interrupted; it is over when it would have been with no flag. A timeout that
    the clock does not hold ends a sweep before the flag goes up. -/
theorem flag_passed_over :
    ∃ l, (ClientLaunch.build ⟨2, 2, 1, 1, by decide, by decide, by decide, by decide⟩ 0
        ⟨"client", "::1", 8000, 2, default, none, 1, 10, ".", "s"⟩ [7, 9] 1).result = .ok l ∧
      (∃ s, Steps l Host.dryRun { settle := 0, timeout := some 0 } (some 0)
          (begin l Host.dryRun { settle := 0, timeout := some 0 } l.runs 1 () {} []) s ∧
        s.phase = .ended 1 ∧ s.total.interrupted = false ∧ s.started.map (·.start) = [1, 1]) ∧
      (l.run Host.dryRun { settle := 0, timeout := some 0 } none 1 ()).clock = 1 ∧
      (l.run Host.dryRun { timeout := some (2 ^ 63 * 1000) } (some 500) 0 ()).result = .error .clockOverflow := by
  obtain ⟨l, hl, built⟩ : ∃ l, l = _ ∧
      (ClientLaunch.build ⟨2, 2, 1, 1, by decide, by decide, by decide, by decide⟩ 0
        ⟨"client", "::1", 8000, 2, default, none, 1, 10, ".", "s"⟩ [7, 9] 1).result = .ok l := ⟨_, rfl, rfl⟩
  obtain ⟨s, steps, ended, uncut, starts⟩ := idle_run l Host.dryRun (some 0) 1 (by decide) l.runs () {} [] rfl
  refine ⟨l, built, ⟨s, steps, ended, uncut, starts.trans ?_⟩, ?_, ?_⟩
  · subst hl
    rfl
  · obtain ⟨-, -, back⟩ := l.run_unflagged { settle := 0, timeout := some 0 } 1 () Host.dryRun_forward
      (fun _ => rfl) (ClientLaunch.points_of_built built).1 (by subst hl; decide)
      (by subst hl; decide)
    have whole : (l.timetable Host.dryRun { settle := 0, timeout := some 0 } l.runs 1 ()).back = some 1 := by
      subst hl
      decide
    exact Option.some.inj (back.symm.trans whole)
  · subst hl
    rfl

end Sweep

end Fleet

/-
  Fleet.Proofs.Run.Refinement — a run of a sweep is a run of the system of its steps: one
  lemma for a batch that is cut short (`cut_steps`), one for a point with the pause behind
  it (`point_steps`), and from them, over the points that are left, `runFrom_ended` and
  `runFrom_ok`.
-/

import Fleet.Proofs.Run.Prefix
import Fleet.Proofs.Run.Sweeping

namespace Fleet

variable {σ : Type} {l : ClientLaunch} {h : Host σ} {pacing : Pacing} {raised : Option Instant}

/-! ## Batches -/

@[simp] theorem workersOf_nil : workersOf [] = [] := rfl

@[simp] theorem workersOf_cons_say (e : Event) (acts : List Act) : workersOf (.say e :: acts) = workersOf acts := rfl

theorem workersOf_batch (now : Instant) (place : σ) (commands : List Command) :
    workersOf (h.batch pacing raised now place commands).acts = h.batchWorkers now place commands := by
  rcases h.batch_cases pacing raised now place commands with ⟨_, _, _, -, -, hb⟩ | ⟨_, -, hb⟩ | ⟨-, hb⟩ <;> rw [hb]
  · rw [workersOf_append, workersOf_say, List.append_nil, Host.batchWorkers]
  · rw [workersOf_append, workersOf_say, List.append_nil, Host.batchWorkers]
  · rfl

namespace Sweep

section Steps

variable {r : ExperimentRun} {points : List ExperimentRun} {now : Instant} {place : σ} {total : SweepSummary}
  {started : List (Trial σ)} {s : BatchSummary}

/-- A batch that returns is a run of the system up to where its loop stops. -/
theorem loop_steps (forward : h.Forward) (points : List ExperimentRun) (total : SweepSummary)
    (started : List (Trial σ)) (hok : (h.batch pacing raised now place (l.commandsFor r.target)).result = .ok s) :
    let t : Trial σ := ⟨r, now, place⟩
    let ran := h.batch pacing raised now place (l.commandsFor r.target)
    ∃ w said, Steps l h pacing raised (begin l h pacing (r :: points) now place total started)
        ⟨points, ran.place, total, started ++ [t], .batch t w⟩ ∧ w.now = ran.clock ∧
      Select.Stop (h.flag raised ran.place) (pacing.deadline now) w s said := by
  intro t ran
  rcases h.batch_cases pacing raised now place (l.commandsFor r.target) with
    ⟨events, clock, summary, holds, hwait, hb⟩ | ⟨_, -, hb⟩ | ⟨-, hb⟩ <;> rw [hb] at hok <;> cases hok
  obtain ⟨w, turns, hclock, stop⟩ := Host.batchWait_returns forward.ahead hwait
  rw [begin_of_holds _ _ _ _ _ _ holds, show ran = _ from hb]
  refine ⟨w, events, ?_, hclock, stop⟩
  exact turns.lift (fun w => (⟨points, t.after l h, total, started ++ [t], .batch t w⟩ : Sweeping σ))
    fun w w' turn => .turn _ _ _ _ _ w w' turn

theorem batch_ok (live : (begin l h pacing (r :: points) now place total started).Live l h pacing raised) :
    ∃ s, (h.batch pacing raised now place (l.commandsFor r.target)).result = .ok s := by
  by_cases holds : pacing.Holds now
  · rw [begin_of_holds _ _ _ _ _ _ holds] at live
    obtain ⟨events, clock, summary, hwait⟩ := wait_ends (live.imp_right fun all w hw =>
      all w ((Worker.inEndOrder_perm _).mem_iff.mp hw))
    exact ⟨summary, congrArg Ran.result (Host.batch_of_wait holds hwait)⟩
  · rw [begin_of_not_holds _ _ _ _ _ _ holds] at live
    exact live.elim

theorem cut_steps (forward : h.Forward) (points : List ExperimentRun) (total : SweepSummary)
    (started : List (Trial σ)) (hok : (h.batch pacing raised now place (l.commandsFor r.target)).result = .ok s)
    (cut : s.interrupted = true) :
    let ran := h.batch pacing raised now place (l.commandsFor r.target)
    Steps l h pacing raised (begin l h pacing (r :: points) now place total started)
      ⟨points, ran.place, total.absorb s, started ++ [⟨r, now, place⟩], .ended ran.clock⟩ := by
  intro ran
  obtain ⟨w, said, steps, hclock, stop⟩ := loop_steps forward points total started hok
  exact steps.tail (hclock ▸ .cut _ _ _ _ _ _ _ _ stop cut)

/-! ## Pauses -/

theorem pass_steps {since u : Instant} (le : now ≤ u)
    (quiet : ∀ v, now ≤ v → v < u → ¬PauseReady pacing (h.flag raised place) since v)
    (ready : PauseReady pacing (h.flag raised place) since u) :
    Steps l h pacing raised ⟨points, place, total, started, .pause since now⟩
      ⟨points, place, total, started, .pause since u⟩ := by
  rcases Nat.lt_or_eq_of_le le with lt | rfl
  · exact .single (.pass _ _ _ _ _ _ _ lt quiet ready)
  · exact .refl

def resume (l : ClientLaunch) (h : Host σ) (pacing : Pacing) (points : List ExperimentRun) (place : σ)
    (total : SweepSummary) (started : List (Trial σ)) : Instant × Bool → Sweeping σ
  | (clock, true) => ⟨points, place, { total with interrupted := true }, started, .ended clock⟩
  | (clock, false) => begin l h pacing points clock place total started

theorem pause_steps : Steps l h pacing raised ⟨points, place, total, started, .pause now now⟩
    (resume l h pacing points place total started (pacing.pause (h.flag raised place) now)) := by
  have le := Clock.le_pauseEnd now pacing.settle
  -- the flag is not up before the pause is over
  have full (later : ∀ z ∈ h.flag raised place, Clock.pauseEnd now pacing.settle < z) :
      Steps l h pacing raised ⟨points, place, total, started, .pause now now⟩
        (begin l h pacing points (Clock.pauseEnd now pacing.settle) place total started) := by
    refine .tail (pass_steps le (fun v _ lt => ?_) (.inl (Nat.le_refl _))) (.next _ _ _ _ _ _ (Nat.le_refl _))
    rintro (h | ⟨z, hz, h⟩)
    · lia
    · have := later z hz
      lia
  unfold Pacing.pause
  cases hflag : h.flag raised place with
  | none => exact full (by simp [hflag])
  | some z =>
    by_cases hz : z ≤ Clock.pauseEnd now pacing.settle
    · have due : Due (h.flag raised place) (max now z) := ⟨z, hflag, Nat.le_max_right _ _⟩
      simp only [if_pos hz, resume]
      refine .tail (pass_steps (Nat.le_max_left _ _) (fun v hv lt => ?_) (.inr due)) (.skip _ _ _ _ _ _ due)
      rw [PauseReady, due_iff_of_mem hflag]
      lia
    · simp only [if_neg hz, resume]
      refine full fun z' hz' => ?_
      obtain rfl : z = z' := Option.some.inj (hflag.symm.trans hz')
      exact Nat.lt_of_not_le hz

theorem point_steps (forward : h.Forward) (points : List ExperimentRun) (total : SweepSummary)
    (started : List (Trial σ)) (hok : (h.batch pacing raised now place (l.commandsFor r.target)).result = .ok s)
    (uncut : s.interrupted = false) {next : Instant × Bool}
    (hpause : pacing.pause (h.flag raised (h.batch pacing raised now place (l.commandsFor r.target)).place)
      (h.batch pacing raised now place (l.commandsFor r.target)).clock = next) :
    Steps l h pacing raised (begin l h pacing (r :: points) now place total started)
      (resume l h pacing points (h.batch pacing raised now place (l.commandsFor r.target)).place (total.absorb s)
        (started ++ [⟨r, now, place⟩]) next) := by
  obtain ⟨w, said, steps, hclock, stop⟩ := loop_steps forward points total started hok
  refine (steps.tail (.settle _ _ _ _ _ _ _ _ stop uncut)).trans ?_
  rw [← hpause, hclock]
  exact pause_steps

end Steps

end Sweep

/-! ## Sweeps -/

namespace ClientLaunch

open Sweep

theorem drop_runs (pos : 0 < l.trials.toNat) {n k : Nat} (fits : k + (n + 1) = l.runCount) :
    ∃ r, l.runAt? k = some r ∧ l.runs.drop k = r :: l.runs.drop (k + 1) := by
  have hk : k < l.runs.length := by rw [length_runs]; omega
  refine ⟨l.runs[k], ?_, List.drop_eq_getElem_cons hk⟩
  rw [← getElem?_runs l pos, List.getElem?_eq_getElem hk]

/-- A run of a sweep that returns is a run of the system: it ends at the same instant, in the
    same place, with the same totals and the same workers. -/
theorem runFrom_ended (forward : h.Forward) (pos : 0 < l.trials.toNat) {n k : Nat} (fits : k + n = l.runCount)
    {now : Instant} {place : σ} {total last : SweepSummary} (started : List (Trial σ)) {ran : Ran σ SweepSummary}
    (hran : l.runFrom h pacing raised n k now place total = ran) (hok : ran.result = .ok last) :
    ∃ s, Steps l h pacing raised (begin l h pacing (l.runs.drop k) now place total started) s ∧
      s.phase = .ended ran.clock ∧ s.place = ran.place ∧ s.total = last ∧
      s.started.flatMap (·.workers l h) = started.flatMap (·.workers l h) ++ workersOf ran.acts := by
  induction n generalizing k now place total started ran with
  | zero =>
    subst hran
    cases hok
    rw [List.drop_eq_nil_of_le (by rw [length_runs]; omega)]
    exact ⟨_, .refl, rfl, rfl, rfl, (List.append_nil _).symm⟩
  | succ n ih =>
    obtain ⟨r, hr, hdrop⟩ := drop_runs pos fits
    rw [hdrop]
    let t : Trial σ := ⟨r, now, place⟩
    have workers : (started ++ [t]).flatMap (·.workers l h) = started.flatMap (·.workers l h) ++
        workersOf (h.batch pacing raised now place (l.commandsFor r.target)).acts := by
      rw [workersOf_batch, List.flatMap_append, List.flatMap_singleton]
      rfl
    rcases l.runFrom_cases h pacing raised hr n now place total with
      ⟨halt, -, hrun⟩ | ⟨s, hb, hs, hrun⟩ | ⟨s, clock, hb, hs, hpause, hrun⟩ | ⟨s, clock, hb, hs, hpause, hrun⟩ <;>
      obtain rfl := hran.symm.trans hrun
    · cases hok
    · cases hok
      exact ⟨_, cut_steps forward _ total started hb hs, rfl, rfl, rfl, by simpa using workers⟩
    · cases hok
      exact ⟨_, point_steps forward _ total started hb hs hpause, rfl, rfl, rfl, by simpa [resume] using workers⟩
    · obtain ⟨s', more, ended, hplace, htotal, hworkers⟩ := ih (by omega) (started ++ [t]) rfl hok
      refine ⟨s', (point_steps forward _ total started hb hs hpause).trans more, ended, hplace, htotal, ?_⟩
      rw [hworkers, workers]
      simp

theorem runFrom_ok (forward : h.Forward) (pos : 0 < l.trials.toNat) {n k : Nat} (fits : k + n = l.runCount)
    {now : Instant} {place : σ} {total : SweepSummary} (started : List (Trial σ))
    (live : ∀ s, Steps l h pacing raised (begin l h pacing (l.runs.drop k) now place total started) s →
      s.Live l h pacing raised) :
    ∃ last, (l.runFrom h pacing raised n k now place total).result = .ok last := by
  induction n generalizing k now place total started with
  | zero => exact ⟨total, rfl⟩
  | succ n ih =>
    obtain ⟨r, hr, hdrop⟩ := drop_runs pos fits
    rw [hdrop] at live
    rcases l.runFrom_cases h pacing raised hr n now place total with
      ⟨halt, hb, -⟩ | ⟨s, -, -, hrun⟩ | ⟨s, clock, -, -, -, hrun⟩ | ⟨s, clock, hb, hs, hpause, hrun⟩
    · obtain ⟨s, hs⟩ := batch_ok (live _ .refl)
      rw [hs] at hb
      cases hb
    · exact ⟨_, congrArg Ran.result hrun⟩
    · exact ⟨_, congrArg Ran.result hrun⟩
    · rw [hrun]
      exact ih (by omega) _ fun s' more => live s' ((point_steps forward _ total started hb hs hpause).trans more)

theorem run_ended (forward : h.Forward) (pos : 0 < l.trials.toNat) {now : Instant} {place : σ}
    (live : ∀ s, Steps l h pacing raised (begin l h pacing l.runs now place {} []) s → s.Live l h pacing raised) :
    ∃ s, Steps l h pacing raised (begin l h pacing l.runs now place {} []) s ∧
      (l.run h pacing raised now place).result = .ok s.total ∧
      s.phase = .ended (l.run h pacing raised now place).clock ∧
      s.place = (l.run h pacing raised now place).place ∧
      workersOf (l.run h pacing raised now place).acts = s.started.flatMap (·.workers l h) := by
  obtain ⟨total, hok⟩ := runFrom_ok (k := 0) forward pos (Nat.zero_add l.runCount) [] live
  obtain ⟨s, steps, ended, hplace, rfl, workers⟩ := runFrom_ended forward pos (Nat.zero_add l.runCount) [] rfl hok
  exact ⟨s, steps, hok, ended, hplace, workers.symm⟩

end ClientLaunch

end Fleet

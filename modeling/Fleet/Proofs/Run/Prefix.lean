/-
  Fleet.Proofs.Run.Prefix — what a sweep starts is a prefix of the full sweep that ends with
  a whole batch. How the workers end, how long the pauses are and when a shutdown is asked
  for decide how many batches it has and nothing else.

  `Host.noting` is a host that keeps the commands it is handed; `runFrom_noting`: that
  changes nothing about a run. `Sweeps` is every way in which a sweep can go, with no
  condition on when a batch returns and with which counts, nor on whether the shutdown flag
  is seen up in it or in the pause behind it; so no flag that goes up and down, and no tie,
  is left out. A run is one of these ways (`runFrom_sweeps`), and each of them starts whole
  batches (`Sweeps.startsWhole`).
-/

import Fleet.Proofs.Launch.Runs
import Fleet.Proofs.Run.Batch
import Fleet.Run.Session

namespace Fleet

variable {σ : Type}

/-! ## Noting -/

/-- A host that also notes every command that it is handed. -/
def Host.noting (h : Host σ) : Host (σ × List Command) where
  start := fun (place, noted) now c => (((h.start place now c).1, noted ++ [c]), (h.start place now c).2)
  asked := fun (place, _) => h.asked place

def Ran.noting {α : Type} (ran : Ran σ α) (noted : List Command) : Ran (σ × List Command) α :=
  ⟨(ran.place, noted), ran.clock, ran.acts, ran.result⟩

namespace Host

variable (h : Host σ) (pacing : Pacing) (raised : Option Instant)

theorem start_noting (now : Instant) (place : σ) (noted : List Command) (c : Command) :
    h.noting.start (place, noted) now c = (((h.start place now c).1, noted ++ [c]), (h.start place now c).2) := rfl

theorem startAll_noting (now : Instant) (place : σ) (noted commands : List Command) :
    h.noting.startAll now (place, noted) commands =
      (((h.startAll now place commands).1, noted ++ commands), (h.startAll now place commands).2) := by
  induction commands generalizing place noted with
  | nil => rw [startAll, startAll, List.append_nil]
  | cons c rest ih => simp only [startAll, start_noting, ih, List.append_assoc, List.singleton_append]

theorem batch_noting (now : Instant) (place : σ) (noted commands : List Command) :
    h.noting.batch pacing raised now (place, noted) commands =
      (h.batch pacing raised now place commands).noting (noted ++ commands) := by
  unfold batch
  rw [startAll_noting]
  obtain ⟨place', acts⟩ := h.startAll now place commands
  have asked : h.noting.asked (place', noted ++ commands) = h.asked place' := rfl
  simp only [asked]
  repeat' split
  all_goals rfl

end Host

/-! ## One point of a sweep -/

namespace ClientLaunch

variable (l : ClientLaunch) (h : Host σ) (pacing : Pacing) (raised : Option Instant)

/-- All that the next point of a sweep can come to: its batch does not return, its batch is
    interrupted, the pause behind it is, or the sweep goes on. -/
theorem runFrom_cases {k : Nat} {r : ExperimentRun} (hr : l.runAt? k = some r) (n : Nat) (now : Instant) (place : σ)
    (total : SweepSummary) :
    let ran := h.batch pacing raised now place (l.commandsFor r.target)
    let run := l.runFrom h pacing raised (n + 1) k now place total
    (∃ halt, ran.result = .error halt ∧
      run = ⟨ran.place, ran.clock, .say (l.opening r) :: ran.acts, .error halt⟩) ∨
    (∃ s, ran.result = .ok s ∧ s.interrupted = true ∧
      run = ⟨ran.place, ran.clock, .say (l.opening r) :: ran.acts ++ [.say (closing r s)], .ok (total.absorb s)⟩) ∨
    (∃ s clock, ran.result = .ok s ∧ s.interrupted = false ∧
      pacing.pause (earlier? raised (h.asked ran.place)) ran.clock = (clock, true) ∧
      run = ⟨ran.place, clock, .say (l.opening r) :: ran.acts ++ [.say (closing r s)] ++ [.say .trialsSkipped],
        .ok { total.absorb s with interrupted := true }⟩) ∨
    (∃ s clock, ran.result = .ok s ∧ s.interrupted = false ∧
      pacing.pause (earlier? raised (h.asked ran.place)) ran.clock = (clock, false) ∧
      run = { l.runFrom h pacing raised n (k + 1) clock ran.place (total.absorb s) with
        acts := .say (l.opening r) :: ran.acts ++ [.say (closing r s)] ++
          (l.runFrom h pacing raised n (k + 1) clock ran.place (total.absorb s)).acts }) := by
  simp only [runFrom, hr]
  cases (h.batch pacing raised now place (l.commandsFor r.target)).result with
  | error halt => exact .inl ⟨halt, rfl, rfl⟩
  | ok s =>
    refine .inr ?_
    cases hs : s.interrupted with
    | true => exact .inl ⟨s, rfl, hs, by simp [hs]⟩
    | false =>
      refine .inr ?_
      rcases pacing.pause _ _ with ⟨clock, _ | _⟩
      · exact .inr ⟨s, clock, rfl, hs, rfl, by simp [hs]⟩
      · exact .inl ⟨s, clock, rfl, hs, rfl, by simp [hs]⟩

theorem runFrom_end {k : Nat} (hr : l.runAt? k = none) (n : Nat) (now : Instant) (place : σ) (total : SweepSummary) :
    l.runFrom h pacing raised n k now place total = ⟨place, now, [], .ok total⟩ := by
  cases n with
  | zero => rfl
  | succ n => simp only [runFrom, hr]

/-! ## Noting a sweep -/

/-- Noting the commands of a sweep changes nothing else about it. -/
theorem runFrom_noting (n k : Nat) (now : Instant) (place : σ) (noted : List Command) (total : SweepSummary) :
    ∃ all, l.runFrom h.noting pacing raised n k now (place, noted) total =
      (l.runFrom h pacing raised n k now place total).noting all := by
  induction n generalizing k now place noted total with
  | zero => exact ⟨noted, rfl⟩
  | succ n ih =>
    cases hr : l.runAt? k with
    | none =>
      refine ⟨noted, ?_⟩
      rw [l.runFrom_end h pacing raised hr, l.runFrom_end h.noting pacing raised hr]
      rfl
    | some r =>
      simp only [runFrom, hr, Host.batch_noting]
      generalize h.batch pacing raised now place (l.commandsFor r.target) = ran
      have asked (all : List Command) : h.noting.asked (ran.noting all).place = h.asked ran.place := rfl
      rw [asked]
      simp only [Ran.noting]
      cases ran.result with
      | error halt => exact ⟨_, rfl⟩
      | ok s =>
        cases hs : s.interrupted with
        | true => exact ⟨noted ++ l.commandsFor r.target, by simp [hs]⟩
        | false =>
          rcases pacing.pause (earlier? raised (h.asked ran.place)) ran.clock with ⟨clock, _ | _⟩
          · obtain ⟨all, hall⟩ := ih (k + 1) clock ran.place (noted ++ l.commandsFor r.target) (total.absorb s)
            exact ⟨all, by simp [hs, hall, Ran.noting]⟩
          · exact ⟨noted ++ l.commandsFor r.target, by simp [hs]⟩

/-! ## Any sweep -/

/-- How a sweep of some points can go from a place and totals on: to a place, and to totals or
    a halt. A batch returns with any summary, if it returns, and any pause can be cut short. -/
inductive Sweeps : List ExperimentRun → σ → SweepSummary → σ → Except Halt SweepSummary → Prop
  | finished (place : σ) (total : SweepSummary) : Sweeps [] place total place (.ok total)
  | halted (r : ExperimentRun) (points : List ExperimentRun) (now : Instant) (place : σ) (total : SweepSummary)
      (halt : Halt) :
      Sweeps (r :: points) place total (h.startAll now place (l.commandsFor r.target)).1 (.error halt)
  | cut (r : ExperimentRun) (points : List ExperimentRun) (now : Instant) (place : σ) (total : SweepSummary)
      (s : BatchSummary) : s.interrupted = true →
      Sweeps (r :: points) place total (h.startAll now place (l.commandsFor r.target)).1 (.ok (total.absorb s))
  | skipped (r : ExperimentRun) (points : List ExperimentRun) (now : Instant) (place : σ) (total : SweepSummary)
      (s : BatchSummary) : s.interrupted = false →
      Sweeps (r :: points) place total (h.startAll now place (l.commandsFor r.target)).1
        (.ok { total.absorb s with interrupted := true })
  | next (r : ExperimentRun) (points : List ExperimentRun) (now : Instant) (place : σ) (total : SweepSummary)
      (s : BatchSummary) (last : σ) (result : Except Halt SweepSummary) : s.interrupted = false →
      Sweeps points (h.startAll now place (l.commandsFor r.target)).1 (total.absorb s) last result →
      Sweeps (r :: points) place total last result

/-- What a sweep comes to is one of the ways in which it can go. -/
theorem runFrom_sweeps (pos : 0 < l.trials.toNat) {n k : Nat} (fits : k + n = l.runCount) (now : Instant) (place : σ)
    (total : SweepSummary) :
    l.Sweeps h (l.runs.drop k) place total (l.runFrom h pacing raised n k now place total).place
      (l.runFrom h pacing raised n k now place total).result := by
  induction n generalizing k now place total with
  | zero =>
    rw [List.drop_eq_nil_of_le (by rw [length_runs]; omega)]
    exact .finished place total
  | succ n ih =>
    have hk : k < l.runs.length := by rw [length_runs]; omega
    have hr : l.runAt? k = some l.runs[k] := by rw [← getElem?_runs l pos, List.getElem?_eq_getElem hk]
    rw [List.drop_eq_getElem_cons hk]
    rcases l.runFrom_cases h pacing raised hr n now place total with
      ⟨halt, -, hrun⟩ | ⟨s, -, hs, hrun⟩ | ⟨s, clock, -, hs, -, hrun⟩ | ⟨s, clock, -, hs, -, hrun⟩ <;> rw [hrun]
    · exact Host.batch_place ▸ .halted _ _ now place total halt
    · exact Host.batch_place ▸ .cut _ _ now place total s hs
    · exact Host.batch_place ▸ .skipped _ _ now place total s hs
    · refine .next _ _ now place total s _ _ hs ?_
      rw [← Host.batch_place]
      exact ih (by omega) clock _ _

/-! ## Prefixes -/

def commandsOf (points : List ExperimentRun) : List Command := points.flatMap fun r => l.commandsFor r.target

theorem commandsOf_cons (r : ExperimentRun) (points : List ExperimentRun) :
    l.commandsOf (r :: points) = l.commandsFor r.target ++ l.commandsOf points := List.flatMap_cons

/-- A sweep of some points has handed out the batches of the first `m` of them, one at least,
    and all of them if it was not interrupted. -/
def StartsWhole (points : List ExperimentRun) (noted : List Command) (total : SweepSummary) (handed : List Command)
    (result : Except Halt SweepSummary) : Prop :=
  ∃ m, m ≤ points.length ∧ (points ≠ [] → 0 < m) ∧ handed = noted ++ l.commandsOf (points.take m) ∧
    ∀ s, result = .ok s → s.batches = total.batches + .ofNat m ∧ (s.interrupted = false → m = points.length)

theorem Sweeps.startsWhole {points : List ExperimentRun} {place last : σ × List Command} {total : SweepSummary}
    {result : Except Halt SweepSummary} (sweeps : l.Sweeps h.noting points place total last result) :
    l.StartsWhole points place.2 total last.2 result := by
  have handed (now : Instant) (place : σ × List Command) (commands : List Command) :
      (h.noting.startAll now place commands).1.2 = place.2 ++ commands := by
    rw [← Prod.eta place, h.startAll_noting]
  -- a sweep that ends with its next point has started one batch
  have ends {r : ExperimentRun} {points : List ExperimentRun} {now : Instant} {place : σ × List Command}
      {total : SweepSummary} {result : Except Halt SweepSummary}
      (last : ∀ s, result = .ok s → s.batches = total.batches + 1 ∧ s.interrupted = true) :
      l.StartsWhole (r :: points) place.2 total (h.noting.startAll now place (l.commandsFor r.target)).1.2 result := by
    refine ⟨1, by simp, fun _ => Nat.one_pos, ?_, fun s hs => ?_⟩
    · rw [handed, List.take_succ_cons, commandsOf_cons, List.take_zero, commandsOf, List.flatMap_nil, List.append_nil]
    · obtain ⟨hbatches, hint⟩ := last s hs
      exact ⟨hbatches, fun quiet => by rw [hint] at quiet; cases quiet⟩
  induction sweeps with
  | finished place total =>
    refine ⟨0, Nat.le_refl _, fun h => (h rfl).elim, by simp [commandsOf], fun s hs => ?_⟩
    cases hs
    exact ⟨(UInt32.add_zero _).symm, fun _ => rfl⟩
  | halted r points now place total halt => exact ends (by simp)
  | cut r points now place total s hs =>
    refine ends fun s' hs' => ?_
    cases hs'
    exact ⟨rfl, by rw [SweepSummary.absorb, hs, Bool.or_true]⟩
  | skipped r points now place total s _ =>
    refine ends fun s' hs' => ?_
    cases hs'
    exact ⟨rfl, rfl⟩
  | next r points now place total s last result _ _ ih =>
    obtain ⟨m, hm, -, hlast, htotal⟩ := ih
    refine ⟨m + 1, Nat.succ_le_succ hm, fun _ => Nat.succ_pos m, ?_, fun s' hs' => ?_⟩
    · rw [hlast, handed, List.take_succ_cons, commandsOf_cons, List.append_assoc]
    · obtain ⟨hbatches, hall⟩ := htotal s' hs'
      refine ⟨?_, fun quiet => congrArg (· + 1) (hall quiet)⟩
      rw [hbatches, UInt32.ofNat_add]
      show total.batches + 1 + .ofNat m = total.batches + (.ofNat m + 1)
      rw [UInt32.add_assoc, UInt32.add_comm 1]

/-! ## Without a shutdown -/

variable {h pacing raised}

theorem batch_unasked {now : Instant} {place : σ} {commands : List Command} {s : BatchSummary}
    (asked : ∀ p, h.asked p = none) (hok : (h.batch pacing none now place commands).result = .ok s) :
    s.interrupted = false := by
  obtain ⟨events, hwait⟩ := Host.wait_of_batch hok
  rw [Host.batchWait, Host.batchRaised, asked] at hwait
  refine wait_interrupted (fun t hc => ?_) hwait
  cases Cut.time?_of_first?_some hc

theorem runFrom_unasked {n k : Nat} {now : Instant} {place : σ} {total s : SweepSummary}
    (asked : ∀ p, h.asked p = none) (hok : (l.runFrom h pacing none n k now place total).result = .ok s) :
    s.interrupted = total.interrupted := by
  induction n generalizing k now place total with
  | zero =>
    cases hok
    rfl
  | succ n ih =>
    cases hr : l.runAt? k with
    | none =>
      rw [runFrom_end l h pacing none hr] at hok
      cases hok
      rfl
    | some r =>
      rcases l.runFrom_cases h pacing none hr n now place total with
        ⟨halt, -, hrun⟩ | ⟨b, hb, hint, -⟩ | ⟨b, clock, -, -, hpause, -⟩ | ⟨b, clock, -, hint, -, hrun⟩
      · rw [hrun] at hok
        cases hok
      · rw [batch_unasked asked hb] at hint
        cases hint
      · rw [asked] at hpause
        cases hpause
      · rw [hrun] at hok
        rw [ih hok, SweepSummary.absorb, hint, Bool.or_false]

/-! ## Sweeps -/

variable {l}

theorem Sweeps.wholeBatches {place : σ} {last : σ × List Command} {result : Except Halt SweepSummary}
    (some : 0 < l.runCount) (sweeps : l.Sweeps h.noting l.runs (place, []) {} last result) :
    ∃ k, 1 ≤ k ∧ k ≤ l.runs.length ∧ last.2 = (l.runs.take k).flatMap (fun r => l.commandsFor r.target) ∧
      ∀ s, result = .ok s → s.batches = .ofNat k ∧ (s.interrupted = false → k = l.runs.length) := by
  obtain ⟨k, hk, hpos, hlast, htotal⟩ := sweeps.startsWhole
  have nonempty : l.runs ≠ [] := List.length_pos_iff.mp (l.length_runs ▸ some)
  refine ⟨k, hpos nonempty, hk, hlast, fun s hs => ?_⟩
  obtain ⟨hbatches, hall⟩ := htotal s hs
  exact ⟨hbatches.trans (UInt32.zero_add _), hall⟩

variable (h pacing raised)

theorem run_noting (now : Instant) (place : σ) : l.run h.noting pacing raised now (place, []) =
    (l.run h pacing raised now place).noting (l.run h.noting pacing raised now (place, [])).place.2 := by
  obtain ⟨all, hall⟩ := l.runFrom_noting h pacing raised l.runCount 0 now place [] {}
  rw [run, hall]
  rfl

theorem run_sweeps (pos : 0 < l.trials.toNat) (now : Instant) (place : σ) :
    l.Sweeps h l.runs place {} (l.run h pacing raised now place).place (l.run h pacing raised now place).result :=
  l.runFrom_sweeps h pacing raised pos (Nat.zero_add l.runCount) now place {}

/-- A sweep goes in one of the ways that `Sweeps` has. In each of them the commands that are
    handed out, in order, are those of the first `k` points, a whole batch for each: of all
    points, unless it is interrupted. So two sweeps of one launch that are not interrupted
    start the same, whatever becomes of the workers. The points are the trials of each
    target, in the order in which the targets are given. -/
theorem sweep_starts_whole_batches {t : Topology} {v : UInt32} {params : ClientParams} {targets : List UInt32}
    {trials : UInt32} (built : (build t v params targets trials).result = .ok l) (now : Instant) (place : σ) :
    let ran := l.run h.noting pacing raised now (place, [])
    ran = (l.run h pacing raised now place).noting ran.place.2 ∧
    l.Sweeps h.noting l.runs (place, []) {} ran.place ran.result ∧
    (∀ last result, l.Sweeps h.noting l.runs (place, []) {} last result →
      ∃ k, 1 ≤ k ∧ k ≤ l.runs.length ∧ last.2 = (l.runs.take k).flatMap (fun r => l.commandsFor r.target) ∧
        ∀ s, result = .ok s → s.batches = .ofNat k ∧ (s.interrupted = false → k = l.runs.length)) ∧
    (∀ {τ : Type} (h' : Host τ) (place' : τ) last last' s s', l.Sweeps h.noting l.runs (place, []) {} last (.ok s) →
      l.Sweeps h'.noting l.runs (place', []) {} last' (.ok s') → s.interrupted = false → s'.interrupted = false →
      last'.2 = last.2) ∧
    (raised = none → (∀ p, h.asked p = none) → ∀ s, ran.result = .ok s → s.interrupted = false) ∧
    l.runs.length = l.targets.length * l.trials.toNat ∧
    (∀ i j target, l.targets[i]? = some target → j < l.trials.toNat →
      l.runs[i * l.trials.toNat + j]? = some ⟨target, .ofNat j⟩) ∧
    ∀ target, (l.commandsFor target).map (·.slot) = (List.range l.topology.clientsPerVm.toNat).map .ofNat := by
  intro ran
  obtain ⟨pos, some⟩ := points_of_built built
  refine ⟨run_noting h pacing raised now place, run_sweeps h.noting pacing raised pos now (place, []),
    fun last result sweeps => sweeps.wholeBatches some, ?_, ?_, l.length_runs,
    fun i j target hi hj => l.getElem?_runs_of_lt hi hj, l.map_slot_commandsFor⟩
  · intro τ h' place' last last' s s' sweeps sweeps' hs hs'
    obtain ⟨k, -, -, hlast, hall⟩ := sweeps.wholeBatches some
    obtain ⟨k', -, -, hlast', hall'⟩ := sweeps'.wholeBatches some
    rw [hlast', hlast, (hall s rfl).2 hs, (hall' s' rfl).2 hs']
  · rintro rfl asked s hs
    exact runFrom_unasked l (h := h.noting) (fun p => asked p.1) hs

/-- Two equal targets with two trials each, and a flag that goes up in the pause behind the
    first batch. -/
theorem sweep_starts_whole_batches_paused :
    ∃ l, (build ⟨2, 3, 1, 1, by decide, by decide, by decide, by decide⟩ 0
        ⟨"client", "::1", 8000, 2, default, none, 1, 10, ".", "s"⟩ [7, 7] 2).result = .ok l ∧
      ∃ k, 1 ≤ k ∧ k ≤ l.runs.length ∧
        (l.run (Host.scripted [⟨10, some (.exited (some 1))⟩]).noting {} (some 12) 0 (0, [])).place.2 =
          (l.runs.take k).flatMap fun r => l.commandsFor r.target := by
  obtain ⟨l, built⟩ : ∃ l, (build ⟨2, 3, 1, 1, by decide, by decide, by decide, by decide⟩ 0
      ⟨"client", "::1", 8000, 2, default, none, 1, 10, ".", "s"⟩ [7, 7] 2).result = .ok l := ⟨_, rfl⟩
  obtain ⟨-, sweeps, whole, -⟩ :=
    sweep_starts_whole_batches (Host.scripted [⟨10, some (.exited (some 1))⟩]) {} (some 12) built 0 0
  obtain ⟨k, pos, le, handed, -⟩ := whole _ _ sweeps
  exact ⟨l, built, k, pos, le, handed⟩

end ClientLaunch

end Fleet

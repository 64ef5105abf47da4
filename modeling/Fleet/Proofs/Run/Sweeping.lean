/-
  Fleet.Proofs.Run.Sweeping — a sweep as a system that takes one step after another: a turn
  of the loop of its batch, the end of a batch, a pause that passes, that is cut short or
  that is over. Whatever is ready at an instant can be taken up, so every way to settle a
  tie is a run of `Step`.

  `OnTime` is what holds at every step: a sweep that has not been stopped is on its
  timetable, and one that has been was stopped with the shutdown flag up. `Terminates`: as
  long as every batch is waited for something that comes and the clock holds its deadline
  (`Live`), no run is endless and none is stuck.
-/

import Fleet.Proofs.Run.Outcome
import Fleet.Proofs.Run.Timetable
import Mathlib.Data.Nat.Find

namespace Fleet

variable {σ : Type}

/-! ## The system -/

/-- From when on the shutdown flag is up, whether it is raised from outside or by a worker
    that has been started. -/
def Host.flag (h : Host σ) (raised : Option Instant) (place : σ) : Option Instant := earlier? raised (h.asked place)

def Pacing.Holds (pacing : Pacing) (now : Instant) : Prop := ∀ length ∈ pacing.timeout, now + length < Clock.horizon

instance (pacing : Pacing) (now : Instant) : Decidable (pacing.Holds now) :=
  inferInstanceAs (Decidable (∀ length ∈ pacing.timeout, now + length < Clock.horizon))

theorem Pacing.Holds.mono {pacing : Pacing} {t u : Instant} (holds : pacing.Holds u) (le : t ≤ u) : pacing.Holds t :=
  fun length hl => Nat.lt_of_le_of_lt (Nat.add_le_add_right le length) (holds length hl)

/-- Something comes that a batch is waited for, if the flag is up from `flag` on: a cut, or
    the end of all workers. -/
def Trial.Comes (t : Trial σ) (l : ClientLaunch) (h : Host σ) (pacing : Pacing) (flag : Option Instant) : Prop :=
  (∃ tc, Cut.first? flag (pacing.deadline t.start) = some tc) ∨ ∀ w ∈ t.workers l h, ∃ u, w.endTime? = some u

inductive Phase (σ : Type) where
  | batch (t : Trial σ) (wait : Waiting)
  | pause (since now : Instant)
  | ended (clock : Instant)
  /-- The deadline of a batch lies beyond the end of the clock. -/
  | halted (t : Trial σ)

structure Sweeping (σ : Type) where
  points : List ExperimentRun
  place : σ
  total : SweepSummary
  started : List (Trial σ)
  phase : Phase σ

namespace Sweep

variable (l : ClientLaunch) (h : Host σ) (pacing : Pacing) (raised : Option Instant)

def waiting (t : Trial σ) : Waiting := ⟨t.start, t.workers l h, { launched := .ofNat (t.commands l).length }, []⟩

def begin (points : List ExperimentRun) (now : Instant) (place : σ) (total : SweepSummary) (started : List (Trial σ)) :
    Sweeping σ :=
  match points with
  | [] => ⟨[], place, total, started, .ended now⟩
  | r :: rest =>
    let t : Trial σ := ⟨r, now, place⟩
    ⟨rest, t.after l h, total, started ++ [t], if pacing.Holds now then .batch t (waiting l h t) else .halted t⟩

def PauseReady (flag : Option Instant) (since t : Instant) : Prop := Clock.pauseEnd since pacing.settle ≤ t ∨ Due flag t

inductive Step : Sweeping σ → Sweeping σ → Prop
  | turn (points : List ExperimentRun) (place : σ) (total : SweepSummary) (started : List (Trial σ)) (t : Trial σ)
      (w w' : Waiting) : Select.Step (h.flag raised place) (pacing.deadline t.start) w w' →
      Step ⟨points, place, total, started, .batch t w⟩ ⟨points, place, total, started, .batch t w'⟩
  /-- The batch is over, and the pause behind it begins. -/
  | settle (points : List ExperimentRun) (place : σ) (total : SweepSummary) (started : List (Trial σ)) (t : Trial σ)
      (w : Waiting) (summary : BatchSummary) (said : List Event) :
      Select.Stop (h.flag raised place) (pacing.deadline t.start) w summary said → summary.interrupted = false →
      Step ⟨points, place, total, started, .batch t w⟩
        ⟨points, place, total.absorb summary, started, .pause w.now w.now⟩
  | cut (points : List ExperimentRun) (place : σ) (total : SweepSummary) (started : List (Trial σ)) (t : Trial σ)
      (w : Waiting) (summary : BatchSummary) (said : List Event) :
      Select.Stop (h.flag raised place) (pacing.deadline t.start) w summary said → summary.interrupted = true →
      Step ⟨points, place, total, started, .batch t w⟩ ⟨points, place, total.absorb summary, started, .ended w.now⟩
  | pass (points : List ExperimentRun) (place : σ) (total : SweepSummary) (started : List (Trial σ))
      (since now u : Instant) : now < u →
      (∀ v, now ≤ v → v < u → ¬PauseReady pacing (h.flag raised place) since v) →
      PauseReady pacing (h.flag raised place) since u →
      Step ⟨points, place, total, started, .pause since now⟩ ⟨points, place, total, started, .pause since u⟩
  | skip (points : List ExperimentRun) (place : σ) (total : SweepSummary) (started : List (Trial σ))
      (since now : Instant) : Due (h.flag raised place) now →
      Step ⟨points, place, total, started, .pause since now⟩
        ⟨points, place, { total with interrupted := true }, started, .ended now⟩
  | next (points : List ExperimentRun) (place : σ) (total : SweepSummary) (started : List (Trial σ))
      (since now : Instant) : Clock.pauseEnd since pacing.settle ≤ now →
      Step ⟨points, place, total, started, .pause since now⟩ (begin l h pacing points now place total started)

abbrev Steps : Sweeping σ → Sweeping σ → Prop := Relation.ReflTransGen (Step l h pacing raised)

end Sweep

namespace Sweeping

def clock (s : Sweeping σ) : Instant :=
  match s.phase with
  | .batch _ w => w.now
  | .pause _ now => now
  | .ended clock => clock
  | .halted t => t.start

def Live (l : ClientLaunch) (h : Host σ) (pacing : Pacing) (raised : Option Instant) (s : Sweeping σ) : Prop :=
  match s.phase with
  | .batch t _ => t.Comes l h pacing (h.flag raised s.place)
  | .halted _ => False
  | .pause _ _ | .ended _ => True

end Sweeping

namespace Sweep

variable {l : ClientLaunch} {h : Host σ} {pacing : Pacing} {raised : Option Instant}

/-! ## Waiting in vain -/

section Comes

variable {t : Trial σ} {flag : Option Instant}

theorem comes_of_cut {c : Cut} {u : Instant} (hu : u ∈ c.time? flag (pacing.deadline t.start)) :
    t.Comes l h pacing flag := by
  obtain ⟨v, c', hc⟩ := Cut.exists_first? c hu
  exact .inl ⟨(v, c'), hc⟩

theorem comes_of_span? (span : (t.span? l h pacing).isSome) : t.Comes l h pacing flag := by
  rcases Pacing.span?_isSome.mp span with timed | all
  · obtain ⟨length, hl⟩ := Option.isSome_iff_exists.mp timed
    exact comes_of_cut (c := .deadline) (u := t.start + length) (by simp [Cut.time?, Pacing.deadline, hl])
  · exact .inr fun w hw => Option.isSome_iff_exists.mp (all w hw)

end Comes

/-! ## The start of a batch -/

section Begin

variable (r : ExperimentRun) (points : List ExperimentRun) (now : Instant) (place : σ) (total : SweepSummary)
  (started : List (Trial σ))

theorem begin_of_holds (holds : pacing.Holds now) : begin l h pacing (r :: points) now place total started =
    ⟨points, (⟨r, now, place⟩ : Trial σ).after l h, total, started ++ [⟨r, now, place⟩],
      .batch ⟨r, now, place⟩ (waiting l h ⟨r, now, place⟩)⟩ := by
  simp only [begin, if_pos holds]

theorem begin_of_not_holds (unheld : ¬pacing.Holds now) : begin l h pacing (r :: points) now place total started =
    ⟨points, (⟨r, now, place⟩ : Trial σ).after l h, total, started ++ [⟨r, now, place⟩],
      .halted ⟨r, now, place⟩⟩ := by
  simp only [begin, if_neg unheld]

theorem clock_begin : (begin l h pacing points now place total started).clock = now := by
  cases points with
  | nil => rfl
  | cons r points =>
    by_cases holds : pacing.Holds now
    · rw [begin_of_holds _ _ _ _ _ _ holds]
      rfl
    · rw [begin_of_not_holds _ _ _ _ _ _ holds]
      rfl

theorem started_begin : ∀ t ∈ (begin l h pacing points now place total started).started,
    t ∈ started ∨ t.start = now := by
  cases points with
  | nil => exact fun t ht => .inl ht
  | cons r points =>
    intro t ht
    rcases List.mem_append.mp ht with ht | ht
    · exact .inl ht
    · obtain rfl := List.mem_singleton.mp ht
      exact .inr rfl

end Begin

/-! ## The clock of a sweep -/

/-- The clock never goes back, and never goes past an instant at which the flag is up. It
    stands still where the place changes. -/
theorem Step.clock {s s' : Sweeping σ} (step : Step l h pacing raised s s') :
    s.clock ≤ s'.clock ∧ (∀ z ∈ h.flag raised s.place, s'.clock ≤ max z s.clock) ∧
      (s'.place = s.place ∨ s'.clock = s.clock) := by
  -- what is ready at no instant before `u` is not past an instant at which the flag is up
  have upto {now u z : Instant} {Ready : Instant → Prop} (quiet : ∀ v, now ≤ v → v < u → ¬Ready v)
      (ready : Ready (max z now)) : u ≤ max z now :=
    Nat.le_of_not_lt fun lt => quiet _ (Nat.le_max_right _ _) lt ready
  have stays {now z : Instant} : now ≤ max z now := Nat.le_max_right _ _
  cases step with
  | turn points place total started t w w' turn =>
    cases turn with
    | pass u lt quiet ready =>
      have upto {z} (hz : z ∈ h.flag raised place) := upto quiet (.inr (.inr ⟨.shutdown, z, hz, Nat.le_max_left _ _⟩))
      exact ⟨Nat.le_of_lt lt, fun z => upto, .inl rfl⟩
    | join => exact ⟨Nat.le_refl _, fun z _ => stays, .inl rfl⟩
  | settle => exact ⟨Nat.le_refl _, fun z _ => stays, .inl rfl⟩
  | cut => exact ⟨Nat.le_refl _, fun z _ => stays, .inl rfl⟩
  | pass points place total started since now u lt quiet ready =>
    exact ⟨Nat.le_of_lt lt, fun z hz => upto quiet (.inr ⟨z, hz, Nat.le_max_left _ _⟩), .inl rfl⟩
  | skip => exact ⟨Nat.le_refl _, fun z _ => stays, .inl rfl⟩
  | next points place total started since now _ =>
    rw [clock_begin]
    exact ⟨Nat.le_refl _, fun z _ => stays, .inr rfl⟩

theorem Steps.clock_le {s s' : Sweeping σ} (steps : Steps l h pacing raised s s') : s.clock ≤ s'.clock := by
  induction steps with
  | refl => exact Nat.le_refl _
  | tail _ step ih => exact Nat.le_trans ih step.clock.1

theorem Step.started {s s' : Sweeping σ} (step : Step l h pacing raised s s') :
    ∀ t ∈ s'.started, t ∈ s.started ∨ t.start = s'.clock := by
  cases step with
  | next points place total started since now _ =>
    rw [clock_begin]
    exact started_begin points now place total started
  | _ => exact fun t ht => .inl ht

theorem Steps.started {s s' : Sweeping σ} (steps : Steps l h pacing raised s s') :
    ∀ t ∈ s'.started, t ∈ s.started ∨ s.clock ≤ t.start ∧ t.start ≤ s'.clock := by
  induction steps with
  | refl => exact fun t ht => .inl ht
  | tail steps step ih =>
    intro t ht
    rcases step.started t ht with ht | ht
    · exact (ih t ht).imp_right fun between => ⟨between.1, Nat.le_trans between.2 step.clock.1⟩
    · exact .inr ⟨ht ▸ Nat.le_trans (Steps.clock_le steps) step.clock.1, Nat.le_of_eq ht⟩

/-! ## On time -/

/-- What holds at every step of a sweep with the given timetable. -/
inductive OnTime (l : ClientLaunch) (h : Host σ) (pacing : Pacing) (raised : Option Instant) (table : Timetable σ) :
    Sweeping σ → Prop
  | batch (points : List ExperimentRun) (total : SweepSummary) (started : List (Trial σ)) (t : Trial σ) (w : Waiting) :
      Counted (h.flag raised (t.after l h)) (pacing.deadline t.start) t.start (t.workers l h) w →
      total.interrupted = false → (l.following h pacing t points).behind (started ++ [t]) = table →
      OnTime l h pacing raised table ⟨points, t.after l h, total, started ++ [t], .batch t w⟩
  | pause (points : List ExperimentRun) (place : σ) (total : SweepSummary) (started : List (Trial σ))
      (since now : Instant) : now ≤ Clock.pauseEnd since pacing.settle → total.interrupted = false →
      (l.timetable h pacing points (Clock.pauseEnd since pacing.settle) place).behind started = table →
      OnTime l h pacing raised table ⟨points, place, total, started, .pause since now⟩
  | back (points : List ExperimentRun) (place : σ) (total : SweepSummary) (started : List (Trial σ)) (clock : Instant) :
      total.interrupted = false → (⟨started, some clock⟩ : Timetable σ) = table →
      OnTime l h pacing raised table ⟨points, place, total, started, .ended clock⟩
  | stopped (points : List ExperimentRun) (place : σ) (total : SweepSummary) (started : List (Trial σ))
      (clock : Instant) : total.interrupted = true → Due (h.flag raised place) clock → started <+: table.trials →
      OnTime l h pacing raised table ⟨points, place, total, started, .ended clock⟩
  | halted (points : List ExperimentRun) (place : σ) (total : SweepSummary) (started : List (Trial σ)) (t : Trial σ) :
      ¬pacing.Holds t.start → started ++ [t] <+: table.trials →
      OnTime l h pacing raised table ⟨points, place, total, started ++ [t], .halted t⟩

section OnTime

variable {table : Timetable σ}

theorem OnTime.begin (forward : h.Forward) {points : List ExperimentRun} {now : Instant} {place : σ}
    {total : SweepSummary} {started : List (Trial σ)} (quiet : total.interrupted = false)
    (htable : (l.timetable h pacing points now place).behind started = table) :
    OnTime l h pacing raised table (begin l h pacing points now place total started) := by
  cases points with
  | nil =>
    refine .back _ _ _ _ _ quiet ?_
    rw [← htable, ClientLaunch.timetable, Timetable.behind, List.append_nil]
  | cons r rest =>
    rw [ClientLaunch.timetable_cons, Timetable.behind_behind] at htable
    by_cases holds : pacing.Holds now
    · rw [begin_of_holds _ _ _ _ _ _ holds]
      refine .batch _ _ _ _ _ ?_ quiet htable
      have length := h.length_batchWorkers now place (l.commandsFor r.target)
      have counted : Counted (h.flag raised ((⟨r, now, place⟩ : Trial σ).after l h)) (pacing.deadline now) now
          (h.batchWorkers now place (l.commandsFor r.target)) _ := .init forward.ahead []
      rw [length] at counted
      exact counted
    · rw [begin_of_not_holds _ _ _ _ _ _ holds]
      refine .halted _ _ _ _ _ holds ?_
      rw [← htable, Timetable.behind]
      exact List.prefix_append _ _

theorem span_of_stop {t : Trial σ} {flag : Option Instant} {w : Waiting} {summary : BatchSummary} {said : List Event}
    (forward : h.Forward) (inv : Counted flag (pacing.deadline t.start) t.start (t.workers l h) w)
    (stop : Select.Stop flag (pacing.deadline t.start) w summary said) (quiet : summary.interrupted = false) :
    (t.span? l h pacing).map (t.start + ·) = some w.now := by
  rw [Trial.span?, ← Pacing.earlier?_deadline (t.started_of_mem_workers l h) forward.ahead]
  have upto : ∀ d ∈ pacing.deadline t.start, w.now ≤ d := fun d hd => by
    have := inv.cut .deadline d hd
    rwa [Nat.max_eq_right (pacing.le_deadline _ d hd)] at this
  cases stop with
  | done hl =>
    obtain ⟨hlast, -, -⟩ := inv.done hl
    rw [hlast]
    cases hd : pacing.deadline t.start with
    | none => rfl
    | some d => exact congrArg some (Nat.min_eq_right (upto d hd))
  | cut c due =>
    cases c with
    | shutdown => cases quiet
    | deadline =>
      obtain ⟨d, hd, le⟩ := due
      obtain rfl : d = w.now := Nat.le_antisymm le (upto d hd)
      rw [show pacing.deadline t.start = some w.now from hd]
      cases hlast : lastEnd? t.start (t.workers l h) with
      | none => rfl
      | some u => exact congrArg some (Nat.min_eq_left (inv.last u hlast))

theorem interrupted_of_counted {flag deadline : Option Instant} {start : Instant} {ws : List Worker} {w : Waiting}
    (inv : Counted flag deadline start ws w) : w.summary.interrupted = false := by
  obtain ⟨joined, -, -, counted⟩ := inv.joined
  rw [counted]
  rfl

theorem due_of_stop {flag deadline : Option Instant} {start : Instant} {ws : List Worker} {w : Waiting}
    {summary : BatchSummary} {said : List Event} (inv : Counted flag deadline start ws w)
    (stop : Select.Stop flag deadline w summary said) (cut : summary.interrupted = true) : Due flag w.now := by
  cases stop with
  | done hl =>
    rw [interrupted_of_counted inv] at cut
    cases cut
  | cut c due =>
    cases c with
    | shutdown => exact due
    | deadline =>
      rw [Cut.close, interrupted_of_counted inv] at cut
      cases cut

theorem absorb_interrupted (total : SweepSummary) (s : BatchSummary) (quiet : total.interrupted = false) :
    (total.absorb s).interrupted = s.interrupted := by
  rw [SweepSummary.absorb, quiet, Bool.false_or]

theorem OnTime.step (forward : h.Forward) {s s' : Sweeping σ} (inv : OnTime l h pacing raised table s)
    (step : Step l h pacing raised s s') : OnTime l h pacing raised table s' := by
  cases step with
  | turn points place total started t w w' turn =>
    cases inv with
    | batch _ _ started _ _ counted quiet htable => exact .batch _ _ _ _ _ (counted.step turn) quiet htable
  | settle points place total started t w summary said stop uncut =>
    cases inv with
    | batch _ _ started _ _ counted quiet htable =>
      refine .pause _ _ _ _ _ _ (Clock.le_pauseEnd _ _) ((absorb_interrupted _ _ quiet).trans uncut) ?_
      obtain ⟨length, hspan, hnow⟩ := Option.map_eq_some_iff.mp (span_of_stop forward counted stop uncut)
      rw [← htable, ClientLaunch.following, Trial.until?, hspan, ← hnow]
      rfl
  | cut points place total started t w summary said stop cut =>
    cases inv with
    | batch _ _ started _ _ counted quiet htable =>
      refine .stopped _ _ _ _ _ ((absorb_interrupted _ _ quiet).trans cut) (due_of_stop counted stop cut) ?_
      rw [← htable, Timetable.behind]
      exact List.prefix_append _ _
  | pass points place total started since now u lt quiet ready =>
    cases inv with
    | pause _ _ _ _ _ _ le uncut htable =>
      refine .pause _ _ _ _ _ _ (Nat.le_of_not_lt fun past => ?_) uncut htable
      exact quiet _ le past (.inl (Nat.le_refl _))
  | skip points place total started since now due =>
    cases inv with
    | pause _ _ _ _ _ _ le uncut htable =>
      refine .stopped _ _ _ _ _ rfl due ?_
      rw [← htable, Timetable.behind]
      exact List.prefix_append _ _
  | next points place total started since now ended =>
    cases inv with
    | pause _ _ _ _ _ _ le uncut htable =>
      obtain rfl : Clock.pauseEnd since pacing.settle = now := Nat.le_antisymm ended le
      exact .begin forward uncut htable

theorem OnTime.steps (forward : h.Forward) {s s' : Sweeping σ} (inv : OnTime l h pacing raised table s)
    (steps : Steps l h pacing raised s s') : OnTime l h pacing raised table s' := by
  induction steps with
  | refl => exact inv
  | tail _ step ih => exact ih.step forward step

theorem Steps.onTime (forward : h.Forward) {points : List ExperimentRun} {now : Instant} {place : σ} {s : Sweeping σ}
    (steps : Steps l h pacing raised (begin l h pacing points now place {} []) s) :
    OnTime l h pacing raised (l.timetable h pacing points now place) s :=
  (OnTime.begin forward rfl rfl).steps forward steps

/-- What a sweep has started is what its timetable starts first. -/
theorem OnTime.prefix_of_table {s : Sweeping σ} (inv : OnTime l h pacing raised table s) :
    s.started <+: table.trials := by
  cases inv with
  | batch _ _ _ _ _ _ _ htable => exact htable ▸ List.prefix_append _ _
  | pause _ _ _ _ _ _ _ _ htable => exact htable ▸ List.prefix_append _ _
  | back _ _ _ _ _ _ htable => exact htable ▸ List.prefix_rfl
  | stopped _ _ _ _ _ _ _ pre => exact pre
  | halted _ _ _ _ _ _ pre => exact pre

/-- A sweep that is over was stopped with the flag up, or is over as its timetable says. -/
theorem OnTime.ended {s : Sweeping σ} {clock : Instant} (inv : OnTime l h pacing raised table s)
    (ended : s.phase = .ended clock) :
    (s.total.interrupted = true ∧ Due (h.flag raised s.place) clock) ∨
      (s.total.interrupted = false ∧ (⟨s.started, some clock⟩ : Timetable σ) = table) := by
  cases inv with
  | stopped _ _ _ _ _ cut due _ =>
    cases ended
    exact .inl ⟨cut, due⟩
  | back _ _ _ _ _ quiet htable =>
    cases ended
    exact .inr ⟨quiet, htable⟩
  | _ => cases ended

theorem OnTime.live {s : Sweeping σ} (inv : OnTime l h pacing raised table s)
    (holds : ∀ t ∈ s.started, pacing.Holds t.start)
    (comes : ∀ t ∈ s.started, t.Comes l h pacing (h.flag raised s.place)) : s.Live l h pacing raised := by
  cases inv with
  | batch points total started t w _ _ _ => exact comes t (List.mem_append_right _ (List.mem_singleton_self t))
  | halted points place total started t unheld _ =>
    exact unheld (holds t (List.mem_append_right _ (List.mem_singleton_self t)))
  | _ => exact trivial

end OnTime

/-! ## Termination -/

section Termination

variable {points : List ExperimentRun} {place : σ} {started : List (Trial σ)}

theorem acc_of_ended {s : Sweeping σ} {clock : Instant} (ended : s.phase = .ended clock) :
    Acc (flip (Step l h pacing raised)) s :=
  ⟨_, fun s' step => by cases step <;> cases ended⟩

theorem acc_pause {total : SweepSummary} {since : Instant}
    (next : ∀ now, Acc (flip (Step l h pacing raised)) (begin l h pacing points now place total started))
    (now : Instant) :
    Acc (flip (Step l h pacing raised)) ⟨points, place, total, started, .pause since now⟩ := by
  have ready {now : Instant} (hready : PauseReady pacing (h.flag raised place) since now) :
      Acc (flip (Step l h pacing raised)) ⟨points, place, total, started, .pause since now⟩ := by
    refine ⟨_, fun s' step => ?_⟩
    cases step with
    | pass _ _ _ _ _ _ u lt quiet _ => exact (quiet _ (Nat.le_refl _) lt hready).elim
    | skip => exact acc_of_ended rfl
    | next => exact next now
  refine ⟨_, fun s' step => ?_⟩
  cases step with
  | pass _ _ _ _ _ _ u _ _ hready => exact ready hready
  | skip => exact acc_of_ended rfl
  | next => exact next now

theorem acc_batch {total : SweepSummary} {t : Trial σ}
    (pause : ∀ total now, Acc (flip (Step l h pacing raised)) ⟨points, place, total, started, .pause now now⟩)
    (w : Waiting) : Acc (flip (Step l h pacing raised)) ⟨points, place, total, started, .batch t w⟩ := by
  have acc : Acc (flip (Select.Step (h.flag raised place) (pacing.deadline t.start))) w := Select.acc_step w
  induction acc with
  | intro w _ ih =>
    refine ⟨_, fun s' step => ?_⟩
    cases step with
    | turn _ _ _ _ _ _ w' turn => exact ih w' turn
    | settle => exact pause _ _
    | cut => exact acc_of_ended rfl

/-- No run is endless: one batch after the other is taken off the points. -/
theorem acc_begin (points : List ExperimentRun) (now : Instant) (place : σ) (total : SweepSummary)
    (started : List (Trial σ)) :
    Acc (flip (Step l h pacing raised)) (begin l h pacing points now place total started) := by
  induction points generalizing now place total started with
  | nil =>
    have ended : (begin l h pacing [] now place total started).phase = .ended now := rfl
    exact acc_of_ended ended
  | cons r rest ih =>
    by_cases holds : pacing.Holds now
    · rw [begin_of_holds _ _ _ _ _ _ holds]
      exact acc_batch (fun total now => acc_pause (fun now => ih now _ total _) now) _
    · rw [begin_of_not_holds _ _ _ _ _ _ holds]
      exact ⟨_, fun s' step => by cases step⟩

theorem OnTime.progress {table : Timetable σ} {s : Sweeping σ} (inv : OnTime l h pacing raised table s)
    (live : s.Live l h pacing raised) : (∃ clock, s.phase = .ended clock) ∨ ∃ s', Step l h pacing raised s s' := by
  cases inv with
  | batch points total started t w counted _ _ =>
    refine .inr ?_
    obtain ⟨clock, summary, said, w', turns, -, stop⟩ := counted.returns live
    rcases turns.cases_head with rfl | ⟨w'', turn, -⟩
    · cases hs : summary.interrupted with
      | false => exact ⟨_, .settle _ _ _ _ _ _ _ _ stop hs⟩
      | true => exact ⟨_, .cut _ _ _ _ _ _ _ _ stop hs⟩
    · exact ⟨_, .turn _ _ _ _ _ _ _ turn⟩
  | pause points place total started since now le _ _ =>
    refine .inr ?_
    by_cases ended : Clock.pauseEnd since pacing.settle ≤ now
    · exact ⟨_, .next _ _ _ _ _ _ ended⟩
    by_cases due : Due (h.flag raised place) now
    · exact ⟨_, .skip _ _ _ _ _ _ due⟩
    -- the first instant at which the pause can end
    classical
    have ready : ∃ u, PauseReady pacing (h.flag raised place) since u := ⟨_, .inl (Nat.le_refl _)⟩
    refine ⟨_, .pass _ _ _ _ _ _ (Nat.find ready) ?_ (fun v _ lt => Nat.find_min ready lt) (Nat.find_spec ready)⟩
    refine Nat.lt_of_not_le fun past => ?_
    rcases Nat.find_spec ready with h | h
    · exact ended (Nat.le_trans h past)
    · exact due (h.mono past)
  | back => exact .inl ⟨_, rfl⟩
  | stopped => exact .inl ⟨_, rfl⟩
  | halted => exact live.elim

/-- Whatever a sweep takes up from `s` on, it comes to an end: no run is endless, and none
    is stuck. -/
structure Terminates (l : ClientLaunch) (h : Host σ) (pacing : Pacing) (raised : Option Instant) (s : Sweeping σ) :
    Prop where
  acc : Acc (flip (Step l h pacing raised)) s
  returns : ∀ s', Steps l h pacing raised s s' →
    ∃ last clock, Steps l h pacing raised s' last ∧ last.phase = .ended clock

theorem OnTime.returns (forward : h.Forward) {table : Timetable σ} {s : Sweeping σ}
    (acc : Acc (flip (Step l h pacing raised)) s) (inv : OnTime l h pacing raised table s)
    (live : ∀ s', Steps l h pacing raised s s' → s'.Live l h pacing raised) :
    ∃ last clock, Steps l h pacing raised s last ∧ last.phase = .ended clock := by
  induction acc with
  | intro s _ ih =>
    rcases inv.progress (live s .refl) with ⟨clock, ended⟩ | ⟨s', step⟩
    · exact ⟨s, clock, .refl, ended⟩
    · obtain ⟨last, clock, steps, ended⟩ := ih s' step (inv.step forward step) fun s'' steps =>
        live s'' (.head step steps)
      exact ⟨last, clock, .head step steps, ended⟩

theorem terminates (forward : h.Forward) {points : List ExperimentRun} {now : Instant} {place : σ}
    {total : SweepSummary} {started : List (Trial σ)} (quiet : total.interrupted = false)
    (live : ∀ s, Steps l h pacing raised (begin l h pacing points now place total started) s →
      s.Live l h pacing raised) :
    Terminates l h pacing raised (begin l h pacing points now place total started) := by
  refine ⟨acc_begin .., fun s steps => ?_⟩
  have acc : Acc (flip (Step l h pacing raised)) s := by
    induction steps with
    | refl => exact acc_begin ..
    | tail _ step ih => exact ih.inv step
  exact ((OnTime.begin forward quiet rfl).steps forward steps).returns forward acc fun s' more =>
    live s' (steps.trans more)

end Termination

end Sweep

end Fleet

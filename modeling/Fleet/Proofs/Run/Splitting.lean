/-
  Fleet.Proofs.Run.Splitting — a sweep over some targets and then some more, against one
  sweep over each part.

  A sweep goes from point to point and takes nothing along but its clock, its place and its
  totals. The totals are only ever added to (`runFrom_plus`), so a sweep that starts with
  totals is one that starts with none and has them added at the end. The pause stands behind
  the last trial of a part as it does behind every other, and the trials of a target are
  numbered from 0 whatever was before it (`runs_append`). So without a shutdown a sweep is one part
  and, if that returns, the other (`run_append`).

  The same holds whatever is taken up first of what is ready at one instant. A sweep of the
  system that ends is read from its first batch on (`ends_cons_iff`): the loop of the batch
  returns, the pause passes, and what is left is a sweep of the other points. By that a sweep
  of two parts that ends is an end of the first and one of the second (`ends_append_iff`).

  `sweep_splits` is both, for a session that runs the parts one after the other.
-/

import Fleet.Proofs.Run.Serving
import Fleet.Proofs.Run.Starting
import Fleet.Proofs.Run.Totals

namespace Fleet

variable {σ α β : Type}

/-! ## Totals -/

def SweepSummary.plus (a b : SweepSummary) : SweepSummary where
  batches := a.batches + b.batches
  launched := a.launched + b.launched
  succeeded := a.succeeded + b.succeeded
  failed := a.failed + b.failed
  startFailed := a.startFailed + b.startFailed
  timedOut := a.timedOut + b.timedOut
  interrupted := a.interrupted || b.interrupted

theorem Counter.total_plus (c : Counter) (a b : SweepSummary) : c.total (a.plus b) = c.total a + c.total b := by
  cases c <;> rfl

namespace SweepSummary

theorem plus_empty (a : SweepSummary) : a.plus {} = a := by
  simp [plus]

theorem plus_absorb (a b : SweepSummary) (s : BatchSummary) : (a.plus b).absorb s = a.plus (b.absorb s) := by
  simp only [plus, absorb, UInt32.add_assoc, Bool.or_assoc]

end SweepSummary

/-! ## Runs -/

namespace Ran

def andThen (ran : Ran σ α) (next : Instant → σ → α → Ran σ β) : Ran σ β :=
  match ran.result with
  | .error halt => ⟨ran.place, ran.clock, ran.acts, .error halt⟩
  | .ok a => { next ran.clock ran.place a with acts := ran.acts ++ (next ran.clock ran.place a).acts }

def plus (ran : Ran σ SweepSummary) (total : SweepSummary) : Ran σ SweepSummary :=
  { ran with result := ran.result.map total.plus }

theorem andThen_of_ok {ran : Ran σ α} {a : α} (hok : ran.result = .ok a) (next : Instant → σ → α → Ran σ β) :
    ran.andThen next =
      { next ran.clock ran.place a with acts := ran.acts ++ (next ran.clock ran.place a).acts } := by
  simp only [andThen, hok]

theorem andThen_eq_ok_iff {ran : Ran σ α} {next : Instant → σ → α → Ran σ β} {b : β} :
    (ran.andThen next).result = .ok b ↔ ∃ a, ran.result = .ok a ∧ (next ran.clock ran.place a).result = .ok b := by
  unfold andThen
  cases ran.result <;> simp

end Ran

namespace ClientLaunch

variable (l : ClientLaunch) (h : Host σ) (pacing : Pacing) (raised : Option Instant)

def withTargets (targets : List UInt32) : ClientLaunch := { l with targets }

theorem runFrom_plus (n k : Nat) (now : Instant) (place : σ) (more total : SweepSummary) :
    l.runFrom h pacing raised n k now place (more.plus total) =
      (l.runFrom h pacing raised n k now place total).plus more := by
  induction n generalizing k now place total with
  | zero => rfl
  | succ n ih =>
    cases hr : l.runAt? k with
    | none =>
      rw [runFrom_end l h pacing raised hr, runFrom_end l h pacing raised hr]
      rfl
    | some r =>
      simp only [runFrom, hr, SweepSummary.plus_absorb, ih]
      cases (h.batch pacing raised now place (l.commandsFor r.target)).result with
      | error halt => rfl
      | ok s =>
        cases hs : s.interrupted with
        | true => simp [hs, Ran.plus, Except.map]
        | false =>
          rcases pacing.pause _ _ with ⟨clock, _ | _⟩
          · simp [hs, Ran.plus]
          · simp [hs, Ran.plus, Except.map, SweepSummary.plus]

theorem runFrom_withTargets {a b : List UInt32} {n k k' : Nat}
    (same : ∀ j < n, (l.withTargets a).runAt? (k + j) = (l.withTargets b).runAt? (k' + j)) (now : Instant) (place : σ)
    (total : SweepSummary) :
    (l.withTargets a).runFrom h pacing raised n k now place total =
      (l.withTargets b).runFrom h pacing raised n k' now place total := by
  induction n generalizing k k' now place total with
  | zero => rfl
  | succ n ih =>
    have first : (l.withTargets a).runAt? k = (l.withTargets b).runAt? k' := same 0 (Nat.succ_pos n)
    have rest : ∀ now place total, (l.withTargets a).runFrom h pacing raised n (k + 1) now place total =
        (l.withTargets b).runFrom h pacing raised n (k' + 1) now place total := by
      refine ih fun j hj => ?_
      have next := same (j + 1) (Nat.succ_lt_succ hj)
      rwa [Nat.add_right_comm k 1 j, Nat.add_right_comm k' 1 j]
    have commands (target : UInt32) : (l.withTargets a).commandsFor target = (l.withTargets b).commandsFor target := rfl
    have opening (r : ExperimentRun) : (l.withTargets a).opening r = (l.withTargets b).opening r := rfl
    simp only [runFrom, first, rest, commands, opening]

variable {l h pacing}

/-- The next points of a sweep that nobody asks to stop are some of them and then the others. -/
theorem runFrom_add (unasked : ∀ place, h.asked place = none) (pos : 0 < l.trials.toNat) (n : Nat) {m k : Nat}
    (fits : k + m ≤ l.runCount) (now : Instant) (place : σ) (total : SweepSummary) :
    l.runFrom h pacing none (m + n) k now place total =
      (l.runFrom h pacing none m k now place total).andThen fun clock place total =>
        l.runFrom h pacing none n (k + m) clock place total := by
  induction m generalizing k now place total with
  | zero =>
    rw [Nat.zero_add]
    rfl
  | succ m ih =>
    obtain ⟨r, hr, -⟩ := drop_runs (n := l.runCount - (k + 1)) (k := k) pos (by omega)
    have shift : m + 1 + n = m + n + 1 := by omega
    have next : k + (m + 1) = k + 1 + m := by omega
    rw [shift, next]
    simp only [runFrom, hr]
    cases hb : (h.batch pacing none now place (l.commandsFor r.target)).result with
    | error halt => rfl
    | ok s =>
      have quiet : s.interrupted = false := batch_unasked unasked hb
      have pause (place : σ) (now : Instant) : pacing.pause (earlier? none (h.asked place)) now =
          (Clock.pauseEnd now pacing.settle, false) := by rw [unasked]; rfl
      simp only [quiet, pause, Bool.false_eq_true, if_false]
      rw [ih (by omega)]
      unfold Ran.andThen
      cases (l.runFrom h pacing none m (k + 1) _ _ _).result with
      | error halt => rfl
      | ok last => simp only [List.append_assoc]

/-! ## Two parts -/

section Parts

variable (l) {a b : List UInt32}

theorem runs_append : (l.withTargets (a ++ b)).runs = (l.withTargets a).runs ++ (l.withTargets b).runs :=
  List.flatMap_append

theorem runCount_append :
    (l.withTargets (a ++ b)).runCount = (l.withTargets a).runCount + (l.withTargets b).runCount := by
  rw [← length_runs, ← length_runs, ← length_runs, runs_append, List.length_append]

theorem runAt?_left (pos : 0 < l.trials.toNat) {k : Nat} (hk : k < (l.withTargets a).runCount) :
    (l.withTargets (a ++ b)).runAt? k = (l.withTargets a).runAt? k := by
  rw [← getElem?_runs (l.withTargets (a ++ b)) pos, ← getElem?_runs (l.withTargets a) pos, runs_append,
    List.getElem?_append_left]
  rwa [length_runs]

theorem runAt?_right (pos : 0 < l.trials.toNat) (k : Nat) :
    (l.withTargets (a ++ b)).runAt? ((l.withTargets a).runCount + k) = (l.withTargets b).runAt? k := by
  rw [← getElem?_runs (l.withTargets (a ++ b)) pos, ← getElem?_runs (l.withTargets b) pos, runs_append, ← length_runs,
    List.getElem?_append_right (Nat.le_add_right _ _), Nat.add_sub_cancel_left]

/-- Without a shutdown a sweep of two parts is the first part and, if that returns, the second,
    to whose totals those of the first are added. -/
theorem run_append (unasked : ∀ place, h.asked place = none) (pos : 0 < l.trials.toNat) (now : Instant) (place : σ) :
    (l.withTargets (a ++ b)).run h pacing none now place =
      ((l.withTargets a).run h pacing none now place).andThen fun clock place total =>
        ((l.withTargets b).run h pacing none clock place).plus total := by
  have fits : 0 + (l.withTargets a).runCount ≤ (l.withTargets (a ++ b)).runCount := by
    rw [runCount_append]
    omega
  rw [run, runCount_append, runFrom_add (l := l.withTargets (a ++ b)) unasked pos _ fits, run]
  have left : (l.withTargets (a ++ b)).runFrom h pacing none (l.withTargets a).runCount 0 now place {} =
      (l.withTargets a).runFrom h pacing none (l.withTargets a).runCount 0 now place {} := by
    refine runFrom_withTargets l h pacing none (fun j hj => ?_) now place {}
    rw [Nat.zero_add]
    exact runAt?_left l pos hj
  rw [left]
  refine congrArg _ (funext fun clock => funext fun place => funext fun total => ?_)
  rw [run, ← runFrom_plus, SweepSummary.plus_empty]
  refine runFrom_withTargets l h pacing none (fun j _ => ?_) clock place total
  rw [Nat.zero_add, Nat.zero_add]
  exact runAt?_right l pos j

end Parts

end ClientLaunch

/-! ## The system -/

namespace Select

variable {deadline : Option Instant}

theorem Step.interrupted {w w' : Waiting} (step : Step none deadline w w') :
    w'.summary.interrupted = w.summary.interrupted := by
  cases step with
  | pass => rfl
  | join => exact BatchSummary.record_interrupted _ _

theorem Stop.interrupted {w : Waiting} {summary : BatchSummary} {said : List Event}
    (stop : Stop none deadline w summary said) : summary.interrupted = w.summary.interrupted := by
  cases stop with
  | done => rfl
  | cut c due =>
    cases c with
    | shutdown =>
      obtain ⟨_, hz, -⟩ := due
      cases hz
    | deadline => rfl

theorem Returns.interrupted {w : Waiting} {clock : Instant} {summary : BatchSummary} {said : List Event}
    (returns : Returns none deadline w clock summary said) : summary.interrupted = w.summary.interrupted := by
  obtain ⟨last, steps, -, stop⟩ := returns
  have same : last.summary.interrupted = w.summary.interrupted := by
    clear stop
    induction steps with
    | refl => rfl
    | tail _ step ih => exact step.interrupted.trans ih
  exact stop.interrupted.trans same

end Select

def Sweeping.behind (s : Sweeping σ) (more : SweepSummary) (earlier : List (Trial σ)) : Sweeping σ :=
  { s with total := more.plus s.total, started := earlier ++ s.started }

namespace Sweep

/-- A sweep of some points that nobody asks to stop can come to an end. -/
def Ends (l : ClientLaunch) (h : Host σ) (pacing : Pacing) (points : List ExperimentRun) (now : Instant) (place : σ)
    (total : SweepSummary) (started : List (Trial σ)) (last : Sweeping σ) (clock : Instant) : Prop :=
  Steps l h pacing none (begin l h pacing points now place total started) last ∧ last.phase = .ended clock

variable {l : ClientLaunch} {h : Host σ} {pacing : Pacing} {points : List ExperimentRun} {now clock : Instant} {place : σ}
  {total : SweepSummary} {started : List (Trial σ)} {last : Sweeping σ}

theorem flag_unasked (unasked : ∀ place, h.asked place = none) (place : σ) : h.flag none place = none := by
  rw [Host.flag, unasked]
  rfl

theorem ends_nil_iff : Ends l h pacing [] now place total started last clock ↔
    last = ⟨[], place, total, started, .ended now⟩ ∧ clock = now := by
  constructor
  · rintro ⟨steps, ended⟩
    rcases steps.cases_head with rfl | ⟨s, step, -⟩
    · cases ended
      exact ⟨rfl, rfl⟩
    · cases step
  · rintro ⟨rfl, rfl⟩
    exact ⟨.refl, rfl⟩

theorem returns_of_ended (unasked : ∀ place, h.asked place = none) {t : Trial σ} {w : Waiting}
    (quiet : w.summary.interrupted = false)
    (steps : Steps l h pacing none ⟨points, place, total, started, .batch t w⟩ last) (ended : last.phase = .ended clock) :
    ∃ c s said, Select.Returns none (pacing.deadline t.start) w c s said ∧
      Steps l h pacing none ⟨points, place, total.absorb s, started, .pause c c⟩ last := by
  generalize hs : (⟨points, place, total, started, .batch t w⟩ : Sweeping σ) = s at steps
  induction steps using Relation.ReflTransGen.head_induction_on generalizing w with
  | refl =>
    subst hs
    cases ended
  | head step rest ih =>
    subst hs
    cases step with
    | turn _ _ _ _ _ _ w' turn =>
      rw [flag_unasked unasked] at turn
      obtain ⟨c, s, said, returns, more⟩ := ih (turn.interrupted.trans quiet) rfl
      exact ⟨c, s, said, .head (.single turn) returns, more⟩
    | settle _ _ _ _ _ _ summary said stop =>
      rw [flag_unasked unasked] at stop
      exact ⟨w.now, summary, said, ⟨w, .refl, rfl, stop⟩, rest⟩
    | cut _ _ _ _ _ _ summary said stop cut =>
      rw [flag_unasked unasked] at stop
      rw [stop.interrupted, quiet] at cut
      cases cut

theorem next_of_ended (unasked : ∀ place, h.asked place = none) {since : Instant}
    (le : now ≤ Clock.pauseEnd since pacing.settle)
    (steps : Steps l h pacing none ⟨points, place, total, started, .pause since now⟩ last)
    (ended : last.phase = .ended clock) :
    Steps l h pacing none (begin l h pacing points (Clock.pauseEnd since pacing.settle) place total started) last := by
  generalize hs : (⟨points, place, total, started, .pause since now⟩ : Sweeping σ) = s at steps
  induction steps using Relation.ReflTransGen.head_induction_on generalizing now with
  | refl =>
    subst hs
    cases ended
  | head step rest ih =>
    subst hs
    cases step with
    | pass _ _ _ _ _ _ u _ quiet _ =>
      refine ih (Nat.le_of_not_lt fun past => ?_) rfl
      exact quiet _ le past (.inl (Nat.le_refl _))
    | skip _ _ _ _ _ _ due =>
      rw [flag_unasked unasked] at due
      obtain ⟨_, hz, -⟩ := due
      cases hz
    | next _ _ _ _ _ _ elapsed =>
      rw [Nat.le_antisymm elapsed le]
      exact rest

/-- The first batch of a sweep that ends returns, and behind the pause the other points are a
    sweep that ends. -/
theorem ends_cons_iff (unasked : ∀ place, h.asked place = none) {r : ExperimentRun} :
    Ends l h pacing (r :: points) now place total started last clock ↔ pacing.Holds now ∧
      ∃ c s said, Select.Returns none (pacing.deadline now) (waiting l h ⟨r, now, place⟩) c s said ∧
        Ends l h pacing points (Clock.pauseEnd c pacing.settle) ((⟨r, now, place⟩ : Trial σ).after l h) (total.absorb s)
          (started ++ [⟨r, now, place⟩]) last clock := by
  let t : Trial σ := ⟨r, now, place⟩
  constructor
  · rintro ⟨steps, ended⟩
    by_cases holds : pacing.Holds now
    · rw [begin_of_holds _ _ _ _ _ _ holds] at steps
      obtain ⟨c, s, said, returns, more⟩ := returns_of_ended unasked rfl steps ended
      exact ⟨holds, c, s, said, returns, next_of_ended unasked (Clock.le_pauseEnd _ _) more ended, ended⟩
    · rw [begin_of_not_holds _ _ _ _ _ _ holds] at steps
      rcases steps.cases_head with rfl | ⟨s, step, -⟩
      · cases ended
      · cases step
  · rintro ⟨holds, c, s, said, returns, more, ended⟩
    refine ⟨?_, ended⟩
    have quiet : s.interrupted = false := returns.interrupted
    obtain ⟨w, turns, rfl, stop⟩ := returns
    rw [← flag_unasked unasked (t.after l h)] at turns stop
    have loop := turns.lift (fun w => (⟨points, t.after l h, total, started ++ [t], .batch t w⟩ : Sweeping σ))
      fun w w' turn => (.turn _ _ _ _ _ w w' turn : Step l h pacing none _ _)
    have pause : Steps l h pacing none ⟨points, t.after l h, total.absorb s, started ++ [t], .pause w.now w.now⟩
        (resume l h pacing points (t.after l h) (total.absorb s) (started ++ [t])
          (pacing.pause (h.flag none (t.after l h)) w.now)) := pause_steps
    rw [flag_unasked unasked] at pause
    rw [begin_of_holds _ _ _ _ _ _ holds]
    exact (loop.tail (.settle _ _ _ _ _ _ _ _ stop quiet)).trans (pause.trans more)

theorem ends_withTargets (unasked : ∀ place, h.asked place = none) (targets : List UInt32) :
    Ends (l.withTargets targets) h pacing points now place total started last clock ↔
      Ends l h pacing points now place total started last clock := by
  induction points generalizing now place total started with
  | nil => rw [ends_nil_iff, ends_nil_iff]
  | cons r points ih =>
    rw [ends_cons_iff unasked, ends_cons_iff unasked]
    refine and_congr_right fun _ => exists_congr fun c => exists_congr fun s => exists_congr fun said => ?_
    exact and_congr_right fun _ => ih

theorem ends_behind_iff (unasked : ∀ place, h.asked place = none) (more : SweepSummary) (earlier : List (Trial σ)) :
    Ends l h pacing points now place (more.plus total) (earlier ++ started) last clock ↔
      ∃ s, Ends l h pacing points now place total started s clock ∧ last = s.behind more earlier := by
  induction points generalizing now place total started with
  | nil =>
    simp only [ends_nil_iff]
    constructor
    · rintro ⟨rfl, rfl⟩
      exact ⟨_, ⟨rfl, rfl⟩, rfl⟩
    · rintro ⟨s, ⟨rfl, rfl⟩, rfl⟩
      exact ⟨rfl, rfl⟩
  | cons r points ih =>
    simp only [ends_cons_iff unasked, SweepSummary.plus_absorb, List.append_assoc, ih]
    constructor
    · rintro ⟨holds, c, s, said, returns, rest, ends, rfl⟩
      exact ⟨rest, ⟨holds, c, s, said, returns, ends⟩, rfl⟩
    · rintro ⟨rest, ⟨holds, c, s, said, returns, ends⟩, rfl⟩
      exact ⟨holds, c, s, said, returns, rest, ends, rfl⟩

theorem ends_iff_behind (unasked : ∀ place, h.asked place = none) (more : SweepSummary) (earlier : List (Trial σ)) :
    Ends l h pacing points now place more earlier last clock ↔
      ∃ s, Ends l h pacing points now place {} [] s clock ∧ last = s.behind more earlier := by
  have behind : Ends l h pacing points now place (more.plus {}) (earlier ++ []) last clock ↔ _ :=
    ends_behind_iff unasked more earlier
  rwa [SweepSummary.plus_empty, List.append_nil] at behind

/-- A sweep of points and then some more ends where one of the others ends that begins at the
    end of the first. -/
theorem ends_append_iff (unasked : ∀ place, h.asked place = none) {more : List ExperimentRun} :
    Ends l h pacing (points ++ more) now place total started last clock ↔
      ∃ first mid, Ends l h pacing points now place total started first mid ∧
        Ends l h pacing more mid first.place first.total first.started last clock := by
  induction points generalizing now place total started with
  | nil =>
    simp only [ends_nil_iff]
    constructor
    · intro ends
      exact ⟨_, now, ⟨rfl, rfl⟩, ends⟩
    · rintro ⟨first, mid, ⟨rfl, rfl⟩, ends⟩
      exact ends
  | cons r points ih =>
    rw [List.cons_append]
    simp only [ends_cons_iff unasked, ih]
    constructor
    · rintro ⟨holds, c, s, said, returns, first, mid, ends, rest⟩
      exact ⟨first, mid, ⟨holds, c, s, said, returns, ends⟩, rest⟩
    · rintro ⟨first, mid, ⟨holds, c, s, said, returns, ends⟩, rest⟩
      exact ⟨holds, c, s, said, returns, first, mid, ends, rest⟩

end Sweep

/-! ## Events -/

def Event.isOfTrial : Event → Bool
  | .trialStarted .. | .trialComplete .. => true
  | _ => false

def trialsOf (acts : List Act) : List Event := (eventsOf acts).filter Event.isOfTrial

theorem trialsOf_append (a b : List Act) : trialsOf (a ++ b) = trialsOf a ++ trialsOf b := by
  simp [trialsOf, eventsOf]

/-! ## Sessions -/

namespace Session

variable (s : Session σ) (l : ClientLaunch)

def sweep : Ran σ SweepSummary := l.run s.host s.pacing s.raised s.clock s.place

def handed : List Command := (l.run s.host.noting s.pacing s.raised s.clock (s.place, [])).place.2

/-- The clock holds every deadline of a sweep in a session, and every batch of it has a timeout
    or workers that all end. -/
def BatchesEnd : Prop :=
  ∀ t ∈ (l.timetable s.host s.pacing l.runs s.clock s.place).trials, s.pacing.Holds t.start ∧
    (s.pacing.timeout.isSome ∨ ∀ w ∈ t.workers l s.host, w.endTime?.isSome)

/-- A sweep in a session, and in its place two sweeps one after the other. -/
structure Split (l la lb : ClientLaunch) (total totalA totalB : SweepSummary) : Prop where
  whole : (s.clients l).result = .ok total
  left : (s.clients la).result = .ok totalA
  right : ((s.after (s.clients la)).clients lb).result = .ok totalB
  uncut : total.interrupted = false ∧ totalA.interrupted = false ∧ totalB.interrupted = false
  counters : ∀ c : Counter, c.total total = c.total totalA + c.total totalB
  handed : s.handed l = s.handed la ++ (s.after (s.clients la)).handed lb
  workers : workersOf (s.clients l).acts =
    workersOf (s.clients la).acts ++ workersOf ((s.after (s.clients la)).clients lb).acts
  lines : linesOf (s.clients l).acts =
    linesOf (s.clients la).acts ++ linesOf ((s.after (s.clients la)).clients lb).acts
  trials : trialsOf (s.clients l).acts =
    trialsOf (s.clients la).acts ++ trialsOf ((s.after (s.clients la)).clients lb).acts
  acts : (s.sweep l).acts = (s.sweep la).acts ++ ((s.after (s.clients la)).sweep lb).acts
  after : s.after (s.clients l) = (s.after (s.clients la)).after ((s.after (s.clients la)).clients lb)

variable {s l}

theorem result_clients (s : Session σ) (l : ClientLaunch) : (s.clients l).result = (s.sweep l).result :=
  ((s.sweep l).conclude_rest fun _ => []).2.2.1

theorem acts_clients (s : Session σ) (l : ClientLaunch) :
    workersOf (s.clients l).acts = workersOf (s.sweep l).acts ∧ linesOf (s.clients l).acts = linesOf (s.sweep l).acts ∧
      trialsOf (s.clients l).acts = trialsOf (s.sweep l).acts := by
  have words : (s.clients l).acts = (s.sweep l).acts ∨
      ∃ total, (s.clients l).acts = (s.sweep l).acts ++ [Event.launchFinished total].map .say := by
    unfold clients sweep Ran.conclude
    split
    · exact .inr ⟨_, rfl⟩
    · exact .inl rfl
  rcases words with h | ⟨total, h⟩ <;> rw [h]
  · exact ⟨rfl, rfl, rfl⟩
  · rw [workersOf_append, workersOf_say, linesOf_append, linesOf_say, trialsOf_append]
    exact ⟨List.append_nil _, List.append_nil _, List.append_nil _⟩

theorem after_clients (unraised : s.raised = none) : s.after (s.clients l) =
    { s with
      place := (s.sweep l).place, clock := (s.sweep l).clock
      workers := s.workers ++ workersOf (s.sweep l).acts } := by
  obtain ⟨place, clock, -, workers⟩ := (s.sweep l).conclude_rest fun _ => []
  rw [after, show (s.clients l).place = _ from place, show (s.clients l).clock = _ from clock,
    show workersOf (s.clients l).acts = _ from workers, Switch.advance_of_unraised unraised]

theorem raised_after_clients (unraised : s.raised = none) : (s.after (s.clients l)).raised = none := by
  rw [after_clients unraised]
  exact Switch.raisedFrom_eq_none_iff.mpr (Switch.raisedFrom_eq_none_iff.mp unraised)

theorem handed_of_ok (unraised : s.raised = none) (unasked : ∀ place, s.host.asked place = none)
    (pos : 0 < l.trials.toNat) (some : 0 < l.runCount) {total : SweepSummary} (hok : (s.sweep l).result = .ok total) :
    total.interrupted = false ∧ s.handed l = l.commandsOf l.runs := by
  have noting := congrArg Ran.result (ClientLaunch.run_noting (l := l) s.host s.pacing s.raised s.clock s.place)
  obtain ⟨k, -, -, handed, all⟩ :=
    (ClientLaunch.run_sweeps (l := l) s.host.noting s.pacing s.raised pos s.clock (s.place, [])).wholeBatches some
  obtain ⟨-, whole⟩ := all total (noting.trans hok)
  rw [sweep, unraised] at hok
  have uncut : total.interrupted = false := l.runFrom_unasked unasked hok
  refine ⟨uncut, ?_⟩
  rw [Session.handed, handed, whole uncut, List.take_length]
  rfl

/-- A sweep over two parts in a session is one over the first and, if that returns, one over the
    second where the session is then. -/
theorem sweep_append (unraised : s.raised = none) (unasked : ∀ place, s.host.asked place = none)
    (pos : 0 < l.trials.toNat) (a b : List UInt32) : s.sweep (l.withTargets (a ++ b)) =
      (s.sweep (l.withTargets a)).andThen fun _ _ total =>
        ((s.after (s.clients (l.withTargets a))).sweep (l.withTargets b)).plus total := by
  have next : (s.after (s.clients (l.withTargets a))).sweep (l.withTargets b) =
      (l.withTargets b).run s.host s.pacing none (s.sweep (l.withTargets a)).clock (s.sweep (l.withTargets a)).place := by
    rw [sweep, raised_after_clients unraised, after_clients unraised]
  rw [next]
  unfold sweep
  rw [unraised, ClientLaunch.run_append l unasked pos]
  rfl

theorem split_of_ok (unraised : s.raised = none) (unasked : ∀ place, s.host.asked place = none)
    (pos : 0 < l.trials.toNat) {a b : List UInt32} (ha : a ≠ []) (hb : b ≠ []) {totalA totalB : SweepSummary}
    (first : (s.sweep (l.withTargets a)).result = .ok totalA)
    (second : ((s.after (s.clients (l.withTargets a))).sweep (l.withTargets b)).result = .ok totalB) :
    s.Split (l.withTargets (a ++ b)) (l.withTargets a) (l.withTargets b) (totalA.plus totalB) totalA totalB := by
  let whole := l.withTargets (a ++ b)
  let la := l.withTargets a
  let lb := l.withTargets b
  let s' := s.after (s.clients la)
  have unraised' : s'.raised = none := raised_after_clients unraised
  have points {targets : List UInt32} (h : targets ≠ []) : 0 < (l.withTargets targets).runCount :=
    Nat.mul_pos (List.length_pos_iff.mpr h) pos
  have append : s.sweep whole = { (s'.sweep lb).plus totalA with acts := (s.sweep la).acts ++ (s'.sweep lb).acts } := by
    rw [show s.sweep whole = _ from sweep_append unraised unasked pos a b, Ran.andThen_of_ok first]
    rfl
  have total : (s.sweep whole).result = .ok (totalA.plus totalB) := by
    rw [append]
    show (s'.sweep lb).result.map totalA.plus = _
    rw [second]
    rfl
  have acts : (s.sweep whole).acts = (s.sweep la).acts ++ (s'.sweep lb).acts := congrArg Ran.acts append
  have place : (s.sweep whole).place = (s'.sweep lb).place := by rw [append]; rfl
  have clock : (s.sweep whole).clock = (s'.sweep lb).clock := by rw [append]; rfl
  obtain ⟨workersL, linesL, trialsL⟩ := s.acts_clients whole
  obtain ⟨workersA, linesA, trialsA⟩ := s.acts_clients la
  obtain ⟨workersB, linesB, trialsB⟩ := s'.acts_clients lb
  obtain ⟨uncut, handed⟩ := handed_of_ok (l := whole) unraised unasked pos (points (by simp [ha])) total
  obtain ⟨uncutA, handedA⟩ := handed_of_ok (l := la) unraised unasked pos (points ha) first
  obtain ⟨uncutB, handedB⟩ := handed_of_ok (l := lb) unraised' unasked pos (points hb) second
  exact {
    whole := (s.result_clients whole).trans total
    left := (s.result_clients la).trans first
    right := (s'.result_clients lb).trans second
    uncut := ⟨uncut, uncutA, uncutB⟩
    counters := fun c => c.total_plus totalA totalB
    handed := by
      rw [handed, handedA, handedB, l.runs_append]
      exact List.flatMap_append
    workers := by rw [workersL, workersA, workersB, acts, workersOf_append]
    lines := by rw [linesL, linesA, linesB, acts, linesOf_append]
    trials := by rw [trialsL, trialsA, trialsB, acts, trialsOf_append]
    acts
    after := by
      have workers : s'.workers = s.workers ++ workersOf (s.sweep la).acts :=
        congrArg Session.workers (after_clients unraised)
      have switch : s'.switch = s.switch := Switch.advance_of_unraised unraised _
      rw [after_clients unraised', after_clients unraised, place, clock, acts, workersOf_append, workers, switch,
        List.append_assoc]
      rfl }

end Session

/-! ## Splitting -/

/-- A launch for some targets and then some more can be built where one for each part can. In a
    session whose flag is down, that nobody is about to raise and on a host that never asks for
    it, a sweep over all of them returns if every batch of it ends. Where it returns, so do the
    sweeps over the parts, one after the other in the same session, and where these do, so does
    it: it hands out the same commands in the same order, starts the same workers at the same
    instants, prints the same lines, tells of the same trials, and leaves the session at the same
    clock with the same workers, those that it has left behind among them. Each of its counters is
    the sum of theirs. So it is for the system too, whatever it takes up first of what is ready
    at one instant: the ends of a sweep over all targets are those of a sweep over the second part
    that begins where one over the first has ended. -/
theorem sweep_splits {t : Topology} {v : UInt32} {params : ClientParams} {a b : List UInt32} {trials : UInt32}
    {l : ClientLaunch} (built : (ClientLaunch.build t v params (a ++ b) trials).result = .ok l) (ha : a ≠ [])
    (hb : b ≠ []) :
    ∃ la lb, (ClientLaunch.build t v params a trials).result = .ok la ∧
      (ClientLaunch.build t v params b trials).result = .ok lb ∧
      ∀ {σ : Type} (s : Session σ), s.raised = none → (∀ place, s.host.asked place = none) →
        (s.host.Forward → s.BatchesEnd l → ∃ total totalA totalB, s.Split l la lb total totalA totalB) ∧
        (∀ total, (s.clients l).result = .ok total → ∃ totalA totalB, s.Split l la lb total totalA totalB) ∧
        (∀ totalA totalB, (s.clients la).result = .ok totalA →
          ((s.after (s.clients la)).clients lb).result = .ok totalB → ∃ total, s.Split l la lb total totalA totalB) ∧
        ∀ last clock, Sweep.Ends l s.host s.pacing l.runs s.clock s.place {} [] last clock ↔
          ∃ first mid second, Sweep.Ends la s.host s.pacing la.runs s.clock s.place {} [] first mid ∧
            Sweep.Ends lb s.host s.pacing lb.runs mid first.place {} [] second clock ∧
            last = second.behind first.total first.started := by
  obtain ⟨pos, -⟩ := ClientLaunch.points_of_built built
  obtain ⟨sweep, slice, hslice, hclients, hservers, hl⟩ := ClientLaunch.build_eq_ok_iff.mp built
  obtain ⟨-, htrials, hrate⟩ := ClientLaunch.checkSweep_eq_ok_iff.mp sweep
  have accepted {targets : List UInt32} (h : targets ≠ []) :
      (ClientLaunch.build t v params targets trials).result = .ok (l.withTargets targets) := by
    rw [hl]
    exact ClientLaunch.build_eq_ok_iff.mpr
      ⟨ClientLaunch.checkSweep_eq_ok_iff.mpr ⟨h, htrials, hrate⟩, slice, hslice, hclients, hservers, rfl⟩
  have same : l.withTargets (a ++ b) = l := by
    rw [hl]
    rfl
  refine ⟨l.withTargets a, l.withTargets b, accepted ha, accepted hb, fun {σ} s unraised unasked => ?_⟩
  have split {totalA totalB : SweepSummary} (first : (s.sweep (l.withTargets a)).result = .ok totalA)
      (second : ((s.after (s.clients (l.withTargets a))).sweep (l.withTargets b)).result = .ok totalB) :
      s.Split l (l.withTargets a) (l.withTargets b) (totalA.plus totalB) totalA totalB := by
    have := Session.split_of_ok unraised unasked pos ha hb first second
    rwa [same] at this
  have parts (total : SweepSummary) (hok : (s.clients l).result = .ok total) :
      ∃ totalA totalB, s.Split l (l.withTargets a) (l.withTargets b) total totalA totalB := by
    have append := Session.sweep_append (l := l) unraised unasked pos a b
    rw [same] at append
    rw [s.result_clients, append, Ran.andThen_eq_ok_iff] at hok
    obtain ⟨totalA, first, hok⟩ := hok
    obtain ⟨totalB, second, rfl⟩ := map_eq_ok_iff.mp hok
    exact ⟨totalA, totalB, split first second⟩
  refine ⟨fun forward ends => ?_, parts, fun totalA totalB first second => ?_, fun last clock => ?_⟩
  · obtain ⟨⟨total, hok, -⟩, -, -⟩ := l.run_unflagged s.pacing s.clock s.place forward unasked pos
      (fun t ht => (ends t ht).1) fun t ht => Pacing.span?_isSome.mpr (ends t ht).2
    rw [← unraised] at hok
    exact ⟨total, parts total ((s.result_clients l).trans hok)⟩
  · rw [Session.result_clients] at first second
    exact ⟨_, split first second⟩
  · have points : l.runs = (l.withTargets a).runs ++ (l.withTargets b).runs := by
      rw [← l.runs_append, same]
    rw [points, Sweep.ends_append_iff unasked]
    simp only [Sweep.ends_withTargets unasked]
    constructor
    · rintro ⟨first, mid, ends, ends'⟩
      obtain ⟨second, behind, rfl⟩ := (Sweep.ends_iff_behind unasked _ _).mp ends'
      exact ⟨first, mid, second, ends, behind, rfl⟩
    · rintro ⟨first, mid, second, ends, ends', rfl⟩
      exact ⟨first, mid, ends, (Sweep.ends_iff_behind unasked _ _).mpr ⟨second, ends', rfl⟩⟩

/-- Three targets, two trials of each and two clients, in a session that starts at 5: of the two
    workers of a batch one fails at once and one is abandoned at the timeout and goes on into the
    next batches, those of the second part among them. -/
theorem sweep_splits_left_behind :
    ∃ l la lb, (ClientLaunch.build ⟨2, 2, 1, 1, by decide, by decide, by decide, by decide⟩ 0
        ⟨"client", "::1", 8000, 2, default, none, 1, 10, ".", "s"⟩ ([7] ++ [9, 7]) 2).result = .ok l ∧
      (ClientLaunch.build ⟨2, 2, 1, 1, by decide, by decide, by decide, by decide⟩ 0
        ⟨"client", "::1", 8000, 2, default, none, 1, 10, ".", "s"⟩ [7] 2).result = .ok la ∧
      (ClientLaunch.build ⟨2, 2, 1, 1, by decide, by decide, by decide, by decide⟩ 0
        ⟨"client", "::1", 8000, 2, default, none, 1, 10, ".", "s"⟩ [9, 7] 2).result = .ok lb ∧
      ∃ total totalA totalB, (⟨Host.scripted [⟨0, some (.exited (some 1))⟩, ⟨400, some (.exited (some 0))⟩],
        { settle := 10, timeout := some 25 }, 0, 5, {}, []⟩ : Session Nat).Split l la lb total totalA totalB := by
  obtain ⟨l, hl, built⟩ : ∃ l, l = _ ∧ (ClientLaunch.build ⟨2, 2, 1, 1, by decide, by decide, by decide, by decide⟩ 0
      ⟨"client", "::1", 8000, 2, default, none, 1, 10, ".", "s"⟩ ([7] ++ [9, 7]) 2).result = .ok l := ⟨_, rfl, rfl⟩
  let s : Session Nat := ⟨Host.scripted [⟨0, some (.exited (some 1))⟩, ⟨400, some (.exited (some 0))⟩],
    { settle := 10, timeout := some 25 }, 0, 5, {}, []⟩
  obtain ⟨la, lb, builtA, builtB, splits⟩ := sweep_splits built (by simp) (by simp)
  obtain ⟨returns, -⟩ := splits s rfl fun _ => rfl
  have holds : ∀ t ∈ (l.timetable s.host s.pacing l.runs s.clock s.place).trials, s.pacing.Holds t.start := by
    subst hl
    decide
  have ends : s.BatchesEnd l := fun t ht => ⟨holds t ht, .inl rfl⟩
  exact ⟨l, la, lb, built, builtA, builtB, returns (Host.scripted_forward _) ends⟩

end Fleet

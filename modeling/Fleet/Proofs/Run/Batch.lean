/-
  Fleet.Proofs.Run.Batch — a batch taken apart: the workers that its start leaves behind
  (`Host.batchWorkers`), and the wait for them (`Host.batchWait`).

  `Host.batch_cases` is all that a batch can come to. `Host.batchWait_returns`: if no worker
  ends before it starts, the wait is a run of the select loop over the workers.
-/

import Fleet.Proofs.Run.Select

namespace Fleet

/-! ## Workers -/

@[simp] theorem workersOf_append (a b : List Act) : workersOf (a ++ b) = workersOf a ++ workersOf b :=
  List.filterMap_append

@[simp] theorem workersOf_say (events : List Event) : workersOf (events.map .say) = [] := by
  induction events with
  | nil => rfl
  | cons e rest ih => exact ih

variable {σ : Type}

namespace Host

variable (h : Host σ) (now : Instant)

def batchWorkers (place : σ) (commands : List Command) : List Worker := workersOf (h.startAll now place commands).2

theorem batchWorkers_cons (place : σ) (c : Command) (rest : List Command) :
    h.batchWorkers now place (c :: rest) = ⟨c.slot, now, (h.start place now c).2.fate⟩ ::
      h.batchWorkers now (h.start place now c).1 rest := by
  simp only [batchWorkers, startAll, workersOf_append, workersOf_say]
  rfl

theorem map_slot_batchWorkers (place : σ) (commands : List Command) :
    (h.batchWorkers now place commands).map (·.slot) = commands.map (·.slot) := by
  induction commands generalizing place with
  | nil => rfl
  | cons c rest ih => rw [batchWorkers_cons, List.map_cons, List.map_cons, ih]

theorem length_batchWorkers (place : σ) (commands : List Command) :
    (h.batchWorkers now place commands).length = commands.length := by
  simpa using congrArg List.length (h.map_slot_batchWorkers now place commands)

theorem started_of_mem_batchWorkers {place : σ} {commands : List Command} {w : Worker}
    (hw : w ∈ h.batchWorkers now place commands) : w.started = now := by
  induction commands generalizing place with
  | nil => cases hw
  | cons c rest ih =>
    rw [batchWorkers_cons] at hw
    rcases List.mem_cons.mp hw with rfl | hw
    · rfl
    · exact ih hw

end Host

/-! ## The wait -/

def Pacing.deadline (pacing : Pacing) (now : Instant) : Option Instant := pacing.timeout.map (now + ·)

theorem Pacing.le_deadline (pacing : Pacing) (now : Instant) : ∀ d ∈ pacing.deadline now, now ≤ d := by
  intro d hd
  obtain ⟨length, -, rfl⟩ := Option.map_eq_some_iff.mp hd
  exact Nat.le_add_right _ _

namespace Host

variable (h : Host σ) (pacing : Pacing) (raised : Option Instant) (now : Instant) (place : σ) (commands : List Command)

/-- From when on the shutdown flag is up, whether it is raised from outside or by a worker
    of the batch. -/
def batchRaised : Option Instant := earlier? raised (h.asked (h.startAll now place commands).1)

/-- The wait of a batch: its workers in the order of their ends, and the first cut. -/
def batchWait : Waited :=
  wait (Cut.first? (h.batchRaised raised now place commands) (pacing.deadline now))
    (Worker.inEndOrder (h.batchWorkers now place commands)) now { launched := .ofNat commands.length }

/-- All that a batch can come to: the end of its wait, a wait without end, or a deadline
    that the clock does not hold. -/
theorem batch_cases :
    (∃ events clock summary, (∀ length ∈ pacing.timeout, now + length < Clock.horizon) ∧
      h.batchWait pacing raised now place commands = (events, some (clock, summary)) ∧
      h.batch pacing raised now place commands = ⟨(h.startAll now place commands).1, clock,
        (h.startAll now place commands).2 ++ events.map .say, .ok summary⟩) ∨
    (∃ events, h.batchWait pacing raised now place commands = (events, none) ∧
      h.batch pacing raised now place commands = ⟨(h.startAll now place commands).1, now,
        (h.startAll now place commands).2 ++ events.map .say, .error .endless⟩) ∨
    ((∃ length ∈ pacing.timeout, Clock.horizon ≤ now + length) ∧
      h.batch pacing raised now place commands = ⟨(h.startAll now place commands).1, now,
        (h.startAll now place commands).2, .error .clockOverflow⟩) := by
  have unheld {length : Nat} (le : ¬now + length < Clock.horizon) : Clock.deadline? now length = none := if_neg le
  have held {length : Nat} (lt : now + length < Clock.horizon) : Clock.deadline? now length = some (now + length) :=
    if_pos lt
  unfold batchWait batchRaised Pacing.deadline batchWorkers batch
  cases pacing.timeout with
  | none =>
    rw [Option.map_none]
    rcases hwait : wait _ _ _ _ with ⟨events, _ | ⟨clock, summary⟩⟩
    · exact .inr (.inl ⟨events, rfl, by simp only [hwait]⟩)
    · exact .inl ⟨events, clock, summary, by simp, rfl, by simp only [hwait]⟩
  | some length =>
    rw [Option.map_some]
    by_cases lt : now + length < Clock.horizon
    · simp only [held lt]
      rcases hwait : wait _ _ _ _ with ⟨events, _ | ⟨clock, summary⟩⟩
      · exact .inr (.inl ⟨events, rfl, rfl⟩)
      · exact .inl ⟨events, clock, summary, by simpa using lt, rfl, rfl⟩
    · refine .inr (.inr ⟨⟨length, rfl, Nat.le_of_not_lt lt⟩, ?_⟩)
      simp [unheld lt]

variable {h pacing raised now place commands}

theorem batch_place : (h.batch pacing raised now place commands).place = (h.startAll now place commands).1 := by
  rcases h.batch_cases pacing raised now place commands with ⟨_, _, _, -, -, hb⟩ | ⟨_, -, hb⟩ | ⟨-, hb⟩ <;> rw [hb]

theorem batch_of_wait (holds : ∀ length ∈ pacing.timeout, now + length < Clock.horizon) {events : List Event}
    {clock : Instant} {summary : BatchSummary}
    (hwait : h.batchWait pacing raised now place commands = (events, some (clock, summary))) :
    h.batch pacing raised now place commands = ⟨(h.startAll now place commands).1, clock,
      (h.startAll now place commands).2 ++ events.map .say, .ok summary⟩ := by
  rcases h.batch_cases pacing raised now place commands with
    ⟨events', clock', summary', -, hwait', hb⟩ | ⟨events', hwait', -⟩ | ⟨⟨length, ht, le⟩, -⟩
  · rw [hwait] at hwait'
    cases hwait'
    exact hb
  · rw [hwait] at hwait'
    cases hwait'
  · exact absurd (holds length ht) (Nat.not_lt_of_le le)

/-- A batch that returns has waited. -/
theorem wait_of_batch {summary : BatchSummary} (hok : (h.batch pacing raised now place commands).result = .ok summary) :
    ∃ events, h.batchWait pacing raised now place commands =
      (events, some ((h.batch pacing raised now place commands).clock, summary)) := by
  rcases h.batch_cases pacing raised now place commands with ⟨events, clock, _, -, hwait, hb⟩ | ⟨_, -, hb⟩ | ⟨-, hb⟩
  · rw [hb] at hok ⊢
    cases hok
    exact ⟨events, hwait⟩
  · rw [hb] at hok
    cases hok
  · rw [hb] at hok
    cases hok

/-- The wait of a batch is a run of the select loop over its workers. -/
theorem batchWait_returns {events : List Event} {clock : Instant} {summary : BatchSummary}
    (ahead : ∀ w ∈ h.batchWorkers now place commands, ∀ u ∈ w.endTime?, now ≤ u)
    (hwait : h.batchWait pacing raised now place commands = (events, some (clock, summary))) :
    Select.Returns (h.batchRaised raised now place commands) (pacing.deadline now)
      ⟨now, h.batchWorkers now place commands, { launched := .ofNat commands.length }, []⟩ clock summary events :=
  wait_returns (Worker.inEndOrder_pairwise _) (Worker.inEndOrder_perm _).symm
    (fun w hw => ahead w ((Worker.inEndOrder_perm _).mem_iff.mp hw)) hwait

end Host

end Fleet

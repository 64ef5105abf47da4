/-
  Fleet.Proofs.Run.Starting — what a run prints is what it starts. Every command that is
  handed out is printed as a line and becomes a worker, in order, and nothing else is
  printed or started (`Starts`); so what is known of the commands of a sweep is known of its
  lines (`ClientLaunch.run_starts`).
-/

import Fleet.Launcher
import Fleet.Proofs.Run.Prefix

namespace Fleet

open Fleet.System

/-! ## Lines -/

@[simp] theorem linesOf_nil : linesOf [] = [] := rfl

@[simp] theorem linesOf_append (a b : List Act) : linesOf (a ++ b) = linesOf a ++ linesOf b := List.filterMap_append

@[simp] theorem linesOf_cons_say (e : Event) (acts : List Act) : linesOf (.say e :: acts) = linesOf acts := rfl

@[simp] theorem linesOf_say (events : List Event) : linesOf (events.map .say) = [] := by
  induction events with
  | nil => rfl
  | cons e rest ih => exact ih

/-! ## Starts -/

/-- Some acts print and start some commands, in order, and no others. -/
structure Starts (acts : List Act) (commands : List Command) : Prop where
  lines : linesOf acts = commands.map (·.line)
  slots : (workersOf acts).map (·.slot) = commands.map (·.slot)

namespace Starts

variable {acts more : List Act} {commands rest : List Command}

theorem nil : Starts [] [] := ⟨rfl, rfl⟩

theorem append (starts : Starts acts commands) (starts' : Starts more rest) : Starts (acts ++ more) (commands ++ rest) where
  lines := by rw [linesOf_append, List.map_append, starts.lines, starts'.lines]
  slots := by rw [workersOf_append, List.map_append, List.map_append, starts.slots, starts'.slots]

theorem say (starts : Starts acts commands) (e : Event) : Starts (.say e :: acts) commands :=
  ⟨starts.lines, starts.slots⟩

theorem saying (starts : Starts acts commands) (events : List Event) : Starts (acts ++ events.map .say) commands := by
  have silent : Starts (events.map .say) [] := ⟨linesOf_say events, by rw [workersOf_say]; rfl⟩
  simpa using starts.append silent

theorem length (starts : Starts acts commands) :
    (linesOf acts).length = commands.length ∧ (workersOf acts).length = commands.length := by
  have lines := congrArg List.length starts.lines
  have slots := congrArg List.length starts.slots
  simp only [List.length_map] at lines slots
  exact ⟨lines, slots⟩

end Starts

variable {σ : Type}

namespace Host

variable (h : Host σ) (pacing : Pacing) (raised : Option Instant) (now : Instant) (place : σ) (commands : List Command)

theorem linesOf_startAll : linesOf (h.startAll now place commands).2 = commands.map (·.line) := by
  induction commands generalizing place with
  | nil => rfl
  | cons c rest ih =>
    rw [List.map_cons, ← ih (h.start place now c).1]
    simp only [startAll, linesOf_append, linesOf_say]
    rfl

theorem startAll_starts : Starts (h.startAll now place commands).2 commands :=
  ⟨h.linesOf_startAll now place commands, h.map_slot_batchWorkers now place commands⟩

theorem batch_starts : Starts (h.batch pacing raised now place commands).acts commands := by
  have starts := h.startAll_starts now place commands
  rcases h.batch_cases pacing raised now place commands with ⟨_, _, _, -, -, hb⟩ | ⟨_, -, hb⟩ | ⟨-, hb⟩ <;> rw [hb]
  · exact starts.saying _
  · exact starts.saying _
  · exact starts

end Host

/-! ## Sweeps -/

namespace ClientLaunch

variable (l : ClientLaunch) (h : Host σ) (pacing : Pacing) (raised : Option Instant)

theorem runFrom_starts (n k : Nat) (now : Instant) (place : σ) (noted : List Command) (total : SweepSummary) :
    let ran := l.runFrom h.noting pacing raised n k now (place, noted) total
    ∃ handed, ran.place.2 = noted ++ handed ∧ Starts ran.acts handed := by
  induction n generalizing k now place noted total with
  | zero => exact ⟨[], (List.append_nil _).symm, .nil⟩
  | succ n ih =>
    intro ran
    cases hr : l.runAt? k with
    | none =>
      have hran : ran = _ := l.runFrom_end h.noting pacing raised hr (n + 1) now (place, noted) total
      rw [hran]
      exact ⟨[], (List.append_nil _).symm, .nil⟩
    | some r =>
      have starts := (h.batch_starts pacing raised now place (l.commandsFor r.target)).say (l.opening r)
      rcases l.runFrom_cases h.noting pacing raised hr n now (place, noted) total with
        ⟨halt, -, hrun⟩ | ⟨s, -, -, hrun⟩ | ⟨s, clock, -, -, -, hrun⟩ | ⟨s, clock, -, -, -, hrun⟩ <;>
        rw [show ran = _ from hrun, h.batch_noting]
      · exact ⟨_, rfl, starts⟩
      · exact ⟨_, rfl, starts.saying [closing r s]⟩
      · exact ⟨_, rfl, (starts.saying [closing r s]).saying [.trialsSkipped]⟩
      · obtain ⟨handed, hplace, more⟩ := ih (k + 1) clock _ _ (total.absorb s)
        exact ⟨_, hplace.trans (List.append_assoc _ _ _), (starts.saying [closing r s]).append more⟩

variable {l}

/-- Whatever a sweep comes to, it has started the whole batches of its first points, of one
    at least, and of all of them if it returns and was not interrupted. -/
theorem run_starts (pos : 0 < l.trials.toNat) (some : 0 < l.runCount) (now : Instant) (place : σ) :
    let ran := l.run h pacing raised now place
    ∃ k, 1 ≤ k ∧ k ≤ l.runs.length ∧ Starts ran.acts (l.commandsOf (l.runs.take k)) ∧
      ∀ s, ran.result = .ok s → s.interrupted = false → k = l.runs.length := by
  intro ran
  obtain ⟨handed, hplace, starts⟩ := l.runFrom_starts h pacing raised l.runCount 0 now place [] {}
  obtain ⟨k, one, le, whole, all⟩ := (run_sweeps (l := l) h.noting pacing raised pos now (place, [])).wholeBatches some
  have noting : l.run h.noting pacing raised now (place, []) = ran.noting _ := run_noting h pacing raised now place
  have acts : (l.run h.noting pacing raised now (place, [])).acts = ran.acts := congrArg Ran.acts noting
  have result : (l.run h.noting pacing raised now (place, [])).result = ran.result := congrArg Ran.result noting
  obtain rfl : handed = l.commandsOf (l.runs.take k) := hplace.symm.trans whole
  rw [result] at all
  exact ⟨k, one, le, acts ▸ starts, fun s hs => (all s hs).2⟩

end ClientLaunch

/-! ## Servers -/

theorem ServerLaunch.run_cases (l : ServerLaunch) (h : Host σ) (pacing : Pacing) (raised : Option Instant)
    (now : Instant) (place : σ) :
    let ran := h.batch pacing raised now place l.commands
    let run := l.run h pacing raised now place
    (∃ s, ran.result = .ok s ∧ run = ⟨ran.place, ran.clock, ran.acts, .ok (({} : SweepSummary).absorb s)⟩) ∨
      ∃ halt, ran.result = .error halt ∧ run = ⟨ran.place, ran.clock, ran.acts, .error halt⟩ := by
  simp only [run]
  cases (h.batch pacing raised now place l.commands).result with
  | ok s => exact .inl ⟨s, rfl, rfl⟩
  | error halt => exact .inr ⟨halt, rfl, rfl⟩

theorem ServerLaunch.run_starts (l : ServerLaunch) (h : Host σ) (pacing : Pacing) (raised : Option Instant)
    (now : Instant) (place : σ) : Starts (l.run h pacing raised now place).acts l.commands := by
  have starts := h.batch_starts pacing raised now place l.commands
  rcases l.run_cases h pacing raised now place with ⟨s, -, hrun⟩ | ⟨halt, -, hrun⟩ <;> rw [hrun] <;> exact starts

/-! ## From first to last word -/

/-- A launch as it was performed is a run with words before and behind it. -/
structure Performance.Of (p : Performance) (ran : Ran σ SweepSummary) : Prop where
  clock : p.clock = ran.clock
  result : p.result = ran.result
  acts : ∃ (first : Event) (last : List Event), p.acts = .say first :: ran.acts ++ last.map .say

namespace Performance.Of

variable {p : Performance} {ran : Ran σ SweepSummary}

theorem workers (of : p.Of ran) : workersOf p.acts = workersOf ran.acts := by
  obtain ⟨first, last, hacts⟩ := of.acts
  rw [hacts, workersOf_append, workersOf_say, List.append_nil]
  rfl

theorem lines (of : p.Of ran) : linesOf p.acts = linesOf ran.acts := by
  obtain ⟨first, last, hacts⟩ := of.acts
  rw [hacts, linesOf_append, linesOf_say, List.append_nil]
  rfl

theorem starts (of : p.Of ran) {commands : List Command} (starts : Starts ran.acts commands) :
    Starts p.acts commands :=
  ⟨of.lines.trans starts.lines, by rw [of.workers, starts.slots]⟩

end Performance.Of

theorem Ran.report_of (ran : Ran σ SweepSummary) (first : Event) (closing : SweepSummary → List Event) (m : Machine) :
    let reported := (ran.announce first).conclude closing
    (⟨reported.acts, reported.clock, m, reported.result⟩ : Performance).Of ran := by
  intro reported
  unfold reported conclude
  split
  · exact ⟨rfl, rfl, first, _, rfl⟩
  · exact ⟨rfl, rfl, first, [], (List.append_nil _).symm⟩

namespace ServerLaunch

variable (l : ServerLaunch) (pacing : Pacing) (raised : Option Instant) (m : Machine)

theorem performOn_dry : (l.performOn true pacing raised m).Of (l.run Host.dryRun pacing raised 0 ()) :=
  Ran.report_of _ _ _ m

theorem performOn_of (dryRun : Bool) : ∃ (σ : Type) (h : Host σ) (place : σ),
    (l.performOn dryRun pacing raised m).Of (l.run h pacing raised 0 place) := by
  cases dryRun with
  | true => exact ⟨_, Host.dryRun, (), l.performOn_dry pacing raised m⟩
  | false => exact ⟨_, Machine.host execute, m, Ran.report_of _ _ _ _⟩

end ServerLaunch

namespace ClientLaunch

variable (l : ClientLaunch) (pacing : Pacing) (raised : Option Instant) (m : Machine)

theorem performOn_dry : (l.performOn true pacing raised m).Of (l.run Host.dryRun pacing raised 0 ()) :=
  Ran.report_of _ _ _ m

theorem performOn_of (dryRun : Bool) : ∃ (σ : Type) (h : Host σ) (place : σ),
    (l.performOn dryRun pacing raised m).Of (l.run h pacing raised 0 place) := by
  cases dryRun with
  | true => exact ⟨_, Host.dryRun, (), l.performOn_dry pacing raised m⟩
  | false => exact ⟨_, Machine.host execute, m, Ran.report_of _ _ _ _⟩

end ClientLaunch

end Fleet

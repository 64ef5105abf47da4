/-
  Fleet.Proofs.Run.Printing — what a launch prints, as it is read on its output. A line is
  printed as its worker starts, so the lines of a run come in the order of their instants
  (`Timely`), and where no worker writes in between they are read as they were printed
  (`Timely.interleave`).
-/

import Fleet.Proofs.Run.Serving
import Fleet.Proofs.Run.Starting
import Fleet.Proofs.Text.Utf8

namespace Fleet

open Fleet.System Text Performance

/-! ## Lines and their instants -/

theorem timedLines_say (events : List Event) (acts : List Act) (waiting : List String) :
    timedLines (events.map .say ++ acts) waiting = timedLines acts waiting := by
  induction events with
  | nil => rfl
  | cons e rest ih => exact ih

theorem timedLines_saying (acts : List Act) (events : List Event) (waiting : List String) :
    timedLines (acts ++ events.map .say) waiting = timedLines acts waiting := by
  induction acts generalizing waiting with
  | nil =>
    have silent := timedLines_say events [] waiting
    rwa [List.append_nil] at silent
  | cons act rest ih =>
    cases act with
    | print line => exact ih _
    | say e => exact ih _
    | start w => exact congrArg (waiting.map (fun line => (w.started, line ++ "\n")) ++ ·) (ih [])

theorem Host.timedLines_startAll {σ : Type} (h : Host σ) (now : Instant) (place : σ) (commands : List Command)
    (acts : List Act) : timedLines ((h.startAll now place commands).2 ++ acts) [] =
      commands.map (fun c => (now, c.line ++ "\n")) ++ timedLines acts [] := by
  induction commands generalizing place with
  | nil => rfl
  | cons c rest ih =>
    rw [List.map_cons, List.cons_append, ← ih (h.start place now c).1]
    simp only [startAll, List.append_assoc, List.cons_append, List.nil_append, timedLines, List.map_cons, List.map_nil,
      timedLines_say]

/-! ## In order -/

/-- Every line of some acts has a start behind it, and the lines come in the order of their
    instants, from `now` on. -/
structure Timely (now : Instant) (acts : List Act) : Prop where
  lines : (timedLines acts []).map (·.2) = (linesOf acts).map (· ++ "\n")
  sorted : (timedLines acts []).Pairwise fun a b => a.1 ≤ b.1
  later : ∀ e ∈ timedLines acts [], now ≤ e.1

namespace Timely

variable {now : Instant} {acts : List Act}

theorem nil (now : Instant) : Timely now [] := ⟨rfl, .nil, nofun⟩

theorem say (t : Timely now acts) (e : Event) : Timely now (.say e :: acts) := ⟨t.lines, t.sorted, t.later⟩

theorem saying (t : Timely now acts) (events : List Event) : Timely now (acts ++ events.map .say) := by
  have same := timedLines_saying acts events []
  refine ⟨?_, same ▸ t.sorted, same ▸ t.later⟩
  rw [same, t.lines, linesOf_append, linesOf_say, List.append_nil]

theorem batch {σ : Type} (h : Host σ) (pacing : Pacing) (raised : Option Instant) (place : σ) (commands : List Command)
    {later : Instant} (le : now ≤ later) (t : Timely later acts) :
    Timely now ((h.batch pacing raised now place commands).acts ++ acts) := by
  obtain ⟨events, hacts⟩ : ∃ events : List Event, (h.batch pacing raised now place commands).acts =
      (h.startAll now place commands).2 ++ events.map .say := by
    rcases h.batch_cases pacing raised now place commands with ⟨events, _, _, -, -, hb⟩ | ⟨events, -, hb⟩ | ⟨-, hb⟩
    · exact ⟨events, congrArg Ran.acts hb⟩
    · exact ⟨events, congrArg Ran.acts hb⟩
    · exact ⟨[], (congrArg Ran.acts hb).trans (List.append_nil _).symm⟩
  have timed : timedLines ((h.startAll now place commands).2 ++ events.map .say ++ acts) [] =
      commands.map (fun c => (now, c.line ++ "\n")) ++ timedLines acts [] := by
    rw [List.append_assoc, h.timedLines_startAll, timedLines_say]
  rw [hacts]
  refine ⟨?_, ?_, ?_⟩ <;> rw [timed]
  · rw [List.map_append, t.lines, linesOf_append, linesOf_append, linesOf_say, h.linesOf_startAll]
    simp
  · refine List.pairwise_append.mpr ⟨?_, t.sorted, ?_⟩
    · exact List.pairwise_map.mpr (List.pairwise_of_forall fun _ _ => Nat.le_refl _)
    · intro a ha b hb
      obtain ⟨c, -, rfl⟩ := List.mem_map.mp ha
      exact Nat.le_trans le (t.later b hb)
  · intro e he
    rcases List.mem_append.mp he with he | he
    · obtain ⟨c, -, rfl⟩ := List.mem_map.mp he
      exact Nat.le_refl _
    · exact Nat.le_trans le (t.later e he)

/-- What is printed in order and not written into is read as it was printed. -/
theorem interleave (t : Timely now acts) : Machine.interleave (timedLines acts []) [] = unlines (linesOf acts) := by
  have sorted : ((timedLines acts []).map fun e => (e.1, toBytes e.2)).Pairwise fun a b => decide (a.1 ≤ b.1) :=
    List.pairwise_map.mpr (t.sorted.imp decide_eq_true)
  have bytes : (((timedLines acts []).map fun e => (e.1, toBytes e.2)).flatMap (·.2)) =
      toBytes (unlines (linesOf acts)) := by
    rw [unlines, ← t.lines, toBytes_join, List.flatMap_map, List.flatMap_map]
  rw [Machine.interleave, List.append_nil, List.mergeSort_of_pairwise sorted, bytes, ofBytes_toBytes]

end Timely

section Runs

variable {σ : Type} {h : Host σ} (pacing : Pacing) (raised : Option Instant)

theorem ClientLaunch.runFrom_timely (l : ClientLaunch) (forward : h.Forward) (n k : Nat) (now : Instant) (place : σ)
    (total : SweepSummary) : Timely now (l.runFrom h pacing raised n k now place total).acts := by
  induction n generalizing k now place total with
  | zero => exact .nil now
  | succ n ih =>
    cases hr : l.runAt? k with
    | none =>
      rw [l.runFrom_end h pacing raised hr]
      exact .nil now
    | some r =>
      let ran := h.batch pacing raised now place (l.commandsFor r.target)
      have batch {later : Instant} {acts : List Act} (le : ran.clock ≤ later) (t : Timely later acts) :
          Timely now (.say (l.opening r) :: (ran.acts ++ acts)) :=
        (t.batch h pacing raised place (l.commandsFor r.target) (Nat.le_trans (Host.le_batch forward) le)).say (l.opening r)
      have alone := batch (Nat.le_refl _) (.nil _)
      rw [List.append_nil] at alone
      rcases l.runFrom_cases h pacing raised hr n now place total with
        ⟨halt, -, hrun⟩ | ⟨s, -, -, hrun⟩ | ⟨s, clock, -, -, -, hrun⟩ | ⟨s, clock, -, -, hpause, hrun⟩ <;> rw [hrun]
      · exact alone
      · exact alone.saying [closing r s]
      · exact (alone.saying [closing r s]).saying [.trialsSkipped]
      · have le : ran.clock ≤ clock := by
          have le := pacing.le_pause (earlier? raised (h.asked ran.place)) ran.clock
          rwa [hpause] at le
        have more := batch le ((ih (k + 1) clock ran.place (total.absorb s)).say (closing r s))
        simpa using more

theorem ServerLaunch.run_timely (l : ServerLaunch) (now : Instant) (place : σ) :
    Timely now (l.run h pacing raised now place).acts := by
  have batch := (Timely.nil now).batch h pacing raised place l.commands (Nat.le_refl now)
  rw [List.append_nil] at batch
  rcases l.run_cases h pacing raised now place with ⟨s, -, hrun⟩ | ⟨halt, -, hrun⟩ <;> rw [hrun] <;> exact batch

end Runs

/-! ## Calls -/

/-- Nothing runs on a machine and nothing has been written. -/
structure System.Machine.Idle (m : Machine) : Prop where
  pending : m.pending = []
  out : m.out = []
  err : m.err = []
  asked : m.asked = none

theorem System.Machine.Idle.settle {m : Machine} (idle : m.Idle) (now : Instant) : m.settle now = m := by
  obtain ⟨files, pending, out, err, asked⟩ := m
  obtain rfl : pending = [] := idle.pending
  simp [Machine.settle]

/-- What comes of a launch that leaves an idle machine as it is and returns. -/
theorem Outcome.ofPerformance_idle {p : Performance} (idle : p.machine.Idle) {now : Instant} (t : Timely now p.acts)
    {total : SweepSummary} (hok : p.result = .ok total) (before : List Event) : ofPerformance before p =
      { code := 0, out := unlines (linesOf p.acts), err := "", events := before ++ p.events, machine := p.machine,
        clock := p.clock } := by
  have out : p.outputOn p.machine = unlines (linesOf p.acts) := by
    rw [Performance.outputOn, idle.out, t.interleave]
  have err : Machine.interleave [] [] = "" := (Timely.nil now).interleave
  simp only [ofPerformance, hok, Machine.settleAll, Performance.final, idle.settle, idle.asked, idle.err, out, err,
    List.append_nil]

end Fleet

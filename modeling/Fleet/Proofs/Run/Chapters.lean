/-
  Fleet.Proofs.Run.Chapters — the log of a sweep is that of its batches, each between an opening
  and a closing of its own.

  A sweep takes up some first points, one batch for each (`Chapter`), and says nothing else but
  that the rest is skipped, if a pause is cut short (`ClientLaunch.Chaptered`). Both the sweep as
  it is run and the sweeps of a world are made of the same three pieces: no point left, a last
  chapter, or a chapter and the rest.

  `log_tells_the_summary` is that and `Host.Tells` together: what the log has to say, from the
  first batch on, is what the summaries count.
-/

import Fleet.Proofs.Run.Telling

namespace Fleet

variable {σ : Type}

/-! ## Chapters -/

/-- A point that a sweep has taken up, and its batch. -/
structure Chapter (σ : Type) where
  point : ExperimentRun
  batch : Ran σ BatchSummary

namespace Chapter

variable (c : Chapter σ)

def summary? : Option BatchSummary := c.batch.result.toOption

def Uncut : Prop := ∃ s ∈ c.summary?, s.interrupted = false

/-- What is said from the opening of a point to its closing, which it has if its batch returns. -/
def events (l : ClientLaunch) : List Event :=
  .trialStarted c.point.target c.point.trial (l.extraFor c.point.target) :: eventsOf c.batch.acts ++
    (c.summary?.map fun s =>
      .trialComplete c.point.target c.point.trial s.succeeded (s.failed + s.startFailed)).toList

end Chapter

def skipNotice (skipped : Bool) : List Event := if skipped then [.trialsSkipped] else []

namespace ClientLaunch

variable (l : ClientLaunch)

/-- A sweep of some points told chapter by chapter, its totals those of the summaries. -/
structure Chaptered (executed : ExperimentRun → Ran σ BatchSummary → Prop) (points : List ExperimentRun)
    (total : SweepSummary) (ran : Ran σ SweepSummary) (chapters : List (Chapter σ)) (skipped : Bool) : Prop where
  executed : ∀ c ∈ chapters, executed c.point c.batch
  first : chapters.map (·.point) <+: points
  log : eventsOf ran.acts = chapters.flatMap (·.events l) ++ skipNotice skipped
  returned : ∀ last, ran.result = .ok last → (∀ c ∈ chapters, c.summary?.isSome) ∧
    let sum := (chapters.filterMap (·.summary?)).foldl .absorb total
    last = { sum with interrupted := sum.interrupted || skipped }
  halted : ∀ halt, ran.result = .error halt → ∃ c ∈ chapters, c.batch.result = .error halt
  /-- No chapter but the last is cut short, and not the last either if the pause behind it is. -/
  uncut : ∀ c ∈ (if skipped then chapters else chapters.dropLast), c.Uncut
  whole : (∀ c ∈ chapters, c.Uncut) → skipped = false → chapters.map (·.point) = points

namespace Chaptered

variable {l} {executed : ExperimentRun → Ran σ BatchSummary → Prop} {points : List ExperimentRun} {total : SweepSummary}
  {now clock : Instant} {place : σ} {r : ExperimentRun} {batch : Ran σ BatchSummary} {s : BatchSummary}

theorem finish : l.Chaptered executed [] total ⟨place, now, [], .ok total⟩ [] false where
  executed := nofun
  first := List.nil_prefix
  log := rfl
  returned := by
    intro last h
    cases h
    exact ⟨nofun, by simp⟩
  halted := nofun
  uncut := nofun
  whole := fun _ _ => rfl

theorem halt {halt : Halt} (hex : executed r batch) (hb : batch.result = .error halt) :
    l.Chaptered executed (r :: points) total ⟨batch.place, batch.clock, .say (l.opening r) :: batch.acts, .error halt⟩
      [⟨r, batch⟩] false := by
  have unfinished : (Chapter.mk r batch).summary? = none := by rw [Chapter.summary?, hb]; rfl
  constructor
  case executed => simpa using hex
  case first => exact ⟨points, rfl⟩
  case log => simp [Chapter.events, unfinished, skipNotice, opening]
  case returned => exact nofun
  case halted =>
    intro halt' h
    cases h
    exact ⟨_, List.mem_singleton_self _, hb⟩
  case uncut => exact nofun
  case whole =>
    intro all
    obtain ⟨s, hs, -⟩ := all _ (List.mem_singleton_self _)
    rw [unfinished] at hs
    cases hs

theorem summary?_of_ok (hb : batch.result = .ok s) : (Chapter.mk r batch).summary? = some s := by
  rw [Chapter.summary?, hb]
  rfl

theorem events_of_ok (hb : batch.result = .ok s) : (Chapter.mk r batch).events l =
    eventsOf (.say (l.opening r) :: batch.acts ++ [.say (closing r s)]) := by
  rw [Chapter.events, summary?_of_ok hb, eventsOf_append]
  rfl

theorem cut (hex : executed r batch) (hb : batch.result = .ok s) (hs : s.interrupted = true) :
    l.Chaptered executed (r :: points) total ⟨batch.place, batch.clock,
      .say (l.opening r) :: batch.acts ++ [.say (closing r s)], .ok (total.absorb s)⟩ [⟨r, batch⟩] false := by
  constructor
  case executed => simpa using hex
  case first => exact ⟨points, rfl⟩
  case log => rw [List.flatMap_singleton, events_of_ok hb, skipNotice, if_neg Bool.false_ne_true, List.append_nil]
  case returned =>
    intro last h
    cases h
    simp [summary?_of_ok hb]
  case halted => exact nofun
  case uncut => exact nofun
  case whole =>
    intro all
    obtain ⟨s', hs', quiet⟩ := all _ (List.mem_singleton_self _)
    rw [summary?_of_ok hb] at hs'
    cases hs'
    rw [hs] at quiet
    cases quiet

theorem skip (hex : executed r batch) (hb : batch.result = .ok s) (hs : s.interrupted = false) :
    l.Chaptered executed (r :: points) total ⟨batch.place, clock,
      .say (l.opening r) :: batch.acts ++ [.say (closing r s)] ++ [.say .trialsSkipped],
      .ok { total.absorb s with interrupted := true }⟩ [⟨r, batch⟩] true := by
  constructor
  case executed => simpa using hex
  case first => exact ⟨points, rfl⟩
  case log =>
    rw [List.flatMap_singleton, events_of_ok hb, eventsOf_append]
    rfl
  case returned =>
    intro last h
    cases h
    simp [summary?_of_ok hb]
  case halted => exact nofun
  case uncut =>
    intro c hc
    obtain rfl := List.mem_singleton.mp hc
    exact ⟨s, summary?_of_ok hb, hs⟩
  case whole => exact nofun

theorem next {rest : Ran σ SweepSummary} {chapters : List (Chapter σ)} {skipped : Bool} (hex : executed r batch)
    (hb : batch.result = .ok s) (hs : s.interrupted = false)
    (h : l.Chaptered executed points (total.absorb s) rest chapters skipped) :
    l.Chaptered executed (r :: points) total
      { rest with acts := .say (l.opening r) :: batch.acts ++ [.say (closing r s)] ++ rest.acts }
      (⟨r, batch⟩ :: chapters) skipped := by
  have uncut : (Chapter.mk r batch).Uncut := ⟨s, summary?_of_ok hb, hs⟩
  constructor
  case executed => exact List.forall_mem_cons.mpr ⟨hex, h.executed⟩
  case first => exact (List.cons_prefix_cons).mpr ⟨rfl, h.first⟩
  case log => rw [eventsOf_append, h.log, ← events_of_ok hb, List.flatMap_cons, List.append_assoc]
  case returned =>
    intro last hlast
    obtain ⟨all, hsum⟩ := h.returned last hlast
    refine ⟨List.forall_mem_cons.mpr ⟨Option.isSome_of_mem (summary?_of_ok hb), all⟩, ?_⟩
    rw [List.filterMap_cons_some (summary?_of_ok hb), List.foldl_cons]
    exact hsum
  case halted =>
    intro halt hhalt
    obtain ⟨c, hc, hce⟩ := h.halted halt hhalt
    exact ⟨c, List.mem_cons_of_mem _ hc, hce⟩
  case uncut =>
    intro c hc
    have among : c = ⟨r, batch⟩ ∨ c ∈ (if skipped then chapters else chapters.dropLast) := by
      cases skipped with
      | true => exact List.mem_cons.mp hc
      | false =>
        cases chapters with
        | nil => cases hc
        | cons c' rest => exact List.mem_cons.mp hc
    rcases among with rfl | hc
    · exact uncut
    · exact h.uncut c hc
  case whole =>
    intro all unskipped
    rw [List.map_cons, h.whole (fun c hc => all c (List.mem_cons_of_mem _ hc)) unskipped]

end Chaptered

/-! ## Sweeps -/

variable {l} {h : Host σ} {pacing : Pacing}

theorem runFrom_chaptered (raised : Option Instant) {n k : Nat} (fits : k + n = l.runCount) (now : Instant) (place : σ)
    (total : SweepSummary) : ∃ chapters skipped,
    l.Chaptered (fun r batch => ∃ now place, batch = h.batch pacing raised now place (l.commandsFor r.target))
      (l.runs.drop k) total (l.runFrom h pacing raised n k now place total) chapters skipped := by
  induction n generalizing k now place total with
  | zero =>
    rw [List.drop_eq_nil_of_le (by rw [l.length_runs]; omega)]
    exact ⟨[], false, .finish⟩
  | succ n ih =>
    have pos : 0 < l.trials.toNat := by
      refine Nat.pos_of_ne_zero fun zero => ?_
      rw [runCount, zero, Nat.mul_zero] at fits
      omega
    obtain ⟨r, hr, hdrop⟩ := l.drop_runs pos fits
    rw [hdrop]
    rcases l.runFrom_cases h pacing raised hr n now place total with
      ⟨halt, hb, hrun⟩ | ⟨s, hb, hs, hrun⟩ | ⟨s, clock, hb, hs, -, hrun⟩ | ⟨s, clock, hb, hs, -, hrun⟩ <;> rw [hrun]
    · exact ⟨_, _, .halt ⟨now, place, rfl⟩ hb⟩
    · exact ⟨_, _, .cut ⟨now, place, rfl⟩ hb hs⟩
    · exact ⟨_, _, .skip ⟨now, place, rfl⟩ hb hs⟩
    · have fits' : k + 1 + n = l.runCount := by omega
      obtain ⟨chapters, skipped, rest⟩ := ih fits' clock
        (h.batch pacing raised now place (l.commandsFor r.target)).place (total.absorb s)
      exact ⟨_, _, .next ⟨now, place, rfl⟩ hb hs rest⟩

theorem chaptered_of_sweeps {W : Watch} {w last : World W} {now : Instant} {place : σ} {total : SweepSummary}
    {points : List ExperimentRun} {ran : Ran σ SweepSummary}
    (sweeps : Play.Sweeps h pacing l w now place total points last ran) : ∃ chapters skipped,
    l.Chaptered (fun r batch => ∃ (w last : World W) (now : Instant) (place : σ),
      Play.Batches h pacing w now place (l.commandsFor r.target) last batch) points total ran chapters skipped := by
  induction sweeps with
  | finish => exact ⟨[], false, .finish⟩
  | halt w last now place total r points ran halt batches hb => exact ⟨_, _, .halt ⟨w, last, now, place, batches⟩ hb⟩
  | cut w last now place total r points ran s batches hb hs => exact ⟨_, _, .cut ⟨w, last, now, place, batches⟩ hb hs⟩
  | skip w mid last now place total r points ran s clock batches hb hs _ =>
    exact ⟨_, _, .skip ⟨w, mid, now, place, batches⟩ hb hs⟩
  | next w mid settled last now place total r points ran s clock rest batches hb hs _ _ ih =>
    obtain ⟨chapters, skipped, rest⟩ := ih
    exact ⟨_, _, .next ⟨w, mid, now, place, batches⟩ hb hs rest⟩

end ClientLaunch

/-! ## One story -/

/-- What a log says at INFO and WARN, apart from what the host itself says, is what the summaries
    count.

    A batch announces each of its commands, in order. Then it complains about the workers that
    have ended without success, each of them once and by its slot, and its counters are the numbers
    of those complaints. Last it says what cut it short, if anything did: the flag if and only if
    the summary is interrupted, the deadline with the number that the summary has for it. This
    holds for every run of the select loop, whatever the deadline is, whenever the flag goes up and
    however ties are settled, for a batch in any world and for the batch as it is run, whether it
    returns or not.

    A sweep tells the batches that it takes up one after the other, each between the opening and
    the closing of its point, and nothing else but that the rest is skipped. -/
theorem log_tells_the_summary (h : Host σ) (pacing : Pacing) :
    (∀ now place commands, (h.remarks now place commands).length = commands.length ∧
      (h.batchWorkers now place commands).map (·.slot) = commands.map (·.slot)) ∧
    (∀ now place commands flag deadline clock summary said,
      Select.Returns flag deadline (h.waiting now place commands) clock summary said →
      h.Tells now place commands (fun t c => Due (c.time? flag deadline) t)
        (h.waited now place commands (said, some (clock, summary)))) ∧
    (∀ {W : Watch} (w last : World W) now place commands ran,
      Play.Batches h pacing w now place commands last ran →
      h.Tells now place commands (last.Came (pacing.deadline now)) ran) ∧
    (∀ raised now place commands, h.Tells now place commands
      (fun t c => Due (c.time? (h.batchRaised raised now place commands) (pacing.deadline now)) t)
      (h.batch pacing raised now place commands)) ∧
    ∀ l : ClientLaunch, (∀ target, (l.commandsFor target).length < UInt32.size) ∧
      (∀ {W : Watch} (w last : World W) now place ran, Play.Sweeps h pacing l w now place {} l.runs last ran →
        ∃ chapters skipped, l.Chaptered (fun r batch => ∃ (w last : World W) (now : Instant) (place : σ),
          Play.Batches h pacing w now place (l.commandsFor r.target) last batch) l.runs {} ran chapters skipped) ∧
      ∀ raised now place, ∃ chapters skipped, l.Chaptered
        (fun r batch => ∃ now place, batch = h.batch pacing raised now place (l.commandsFor r.target))
        l.runs {} (l.run h pacing raised now place) chapters skipped := by
  refine ⟨fun now place commands => ⟨h.length_remarks now place commands, h.map_slot_batchWorkers now place commands⟩,
    fun now place commands flag deadline clock summary said returns => Host.returns_tells returns,
    fun w last now place commands ran batches => batches.tells,
    fun raised now place commands => Host.batch_tells pacing raised,
    fun l => ⟨fun target => ?_, fun w last now place ran sweeps => ClientLaunch.chaptered_of_sweeps sweeps,
      fun raised now place => ClientLaunch.runFrom_chaptered raised (Nat.zero_add l.runCount) now place {}⟩⟩
  rw [l.length_commandsFor target]
  exact l.topology.clientsPerVm.toNat_lt

/-- Three clients: one that cannot be started, one that fails and one that is given up at the
    timeout, in a world whose sender raises the flag in the pause behind the first trial. -/
theorem log_tells_the_summary_mixed :
    let h := Host.scripted [⟨0, some (.notStarted "no such file")⟩, ⟨5, some (.exited (some 1))⟩,
      ⟨400, some (.exited (some 0))⟩]
    let pacing : Pacing := { settle := 10, timeout := some 25 }
    let w : World Watch.counting := ⟨⟨0, 0, false, false, by decide⟩, [(27, .send true)]⟩
    ∃ l, (ClientLaunch.build ⟨3, 3, 1, 1, by decide, by decide, by decide, by decide⟩ 0
        ⟨"client", "::1", 8000, 2, default, none, 1, 10, ".", "s"⟩ [7] 2).result = .ok l ∧
      (∃ last ran, Play.Batches h pacing w 0 0 (l.commandsFor 7) last ran ∧
        ran.result = .ok ⟨3, 0, 1, 1, 1, false⟩ ∧ h.Tells 0 0 (l.commandsFor 7) (last.Came (some 25)) ran) ∧
      (∃ clock summary said,
        Select.Returns (some 27) (some 25) (h.waiting 0 0 (l.commandsFor 7)) clock summary said ∧
        h.Tells 0 0 (l.commandsFor 7) (fun t c => Due (c.time? (some 27) (some 25)) t)
          (h.waited 0 0 (l.commandsFor 7) (said, some (clock, summary)))) ∧
      ∃ last ran, Play.Sweeps h pacing l w 0 0 {} l.runs last ran ∧ ∃ chapters skipped,
        l.Chaptered (fun r batch => ∃ (w last : World Watch.counting) (now : Instant) (place : Nat),
          Play.Batches h pacing w now place (l.commandsFor r.target) last batch) l.runs {} ran chapters skipped := by
  intro h pacing w
  let ws : List Worker := [⟨0, 0, .ends 0 (.notStarted "no such file")⟩, ⟨1, 0, .ends 5 (.exited (some 1))⟩,
    ⟨2, 0, .ends 400 (.exited (some 0))⟩]
  obtain ⟨l, built, workers⟩ : ∃ l, (ClientLaunch.build ⟨3, 3, 1, 1, by decide, by decide, by decide, by decide⟩ 0
      ⟨"client", "::1", 8000, 2, default, none, 1, 10, ".", "s"⟩ [7] 2).result = .ok l ∧
      h.batchWorkers 0 0 (l.commandsFor 7) = ws := ⟨_, rfl, rfl⟩
  have inOrder : Worker.inEndOrder ws = ws := List.mergeSort_of_pairwise (by decide)
  have length : (l.commandsFor 7).length = 3 := by rw [← h.length_batchWorkers 0 0, workers]; rfl
  let said : List Event := [.finished 0 false 2, .didNotRun 0 "no such file", .finished 1 false 1,
    .exitedBadly 1 (some 1), .abandoned 1]
  have hwait : h.batchWait pacing (some 27) 0 0 (l.commandsFor 7) = (said, some (25, ⟨3, 0, 1, 1, 1, false⟩)) := by
    rw [Host.batchWait, workers, inOrder, length]
    rfl
  refine ⟨l, built, ?_⟩
  have forward : h.Forward := Host.scripted_forward _
  have down : Watch.counting.value w.view ≠ true := by decide
  have shows : w.Shows 0 (some 27) :=
    ⟨fun up => absurd up down, fun _ _ _ => .rfl, ⟨fun up => absurd up down, trivial⟩, List.pairwise_singleton _ _⟩
  obtain ⟨-, loops, batches, -, sweeps⟩ := log_tells_the_summary h pacing
  obtain ⟨last, batch, -⟩ := Play.Batches.of_batch forward (fun _ => rfl) shows pacing 0 (l.commandsFor 7)
  have result : (h.batch pacing (some 27) 0 0 (l.commandsFor 7)).result = .ok ⟨3, 0, 1, 1, 1, false⟩ := by
    rw [Host.batch_of_wait (by decide) hwait]
  have returns := Host.batchWait_returns (fun w hw => forward.ahead w hw) hwait
  obtain ⟨end_, sweep, -⟩ := Play.Sweeps.of_runFrom forward (fun _ => rfl) shows l (Nat.zero_add l.runCount) {} rfl
  exact ⟨⟨last, _, batch, result, batches w last 0 0 _ _ batch⟩,
    ⟨_, _, _, returns, loops 0 0 _ _ _ _ _ _ returns⟩, ⟨end_, _, sweep, (sweeps l).2.1 w end_ 0 0 _ sweep⟩⟩

end Fleet

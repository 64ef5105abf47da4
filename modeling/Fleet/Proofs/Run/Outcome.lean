/-
  Fleet.Proofs.Run.Outcome — a batch in closed form. Which of the last end of a worker, the
  deadline and the shutdown flag comes first decides when a batch returns, and the workers
  that have ended by then decide its summary (`ClosedForm`); no order of events is left in it.

  `Counted` is what holds at every turn of the loop: what has been counted is the tally of
  the workers joined so far, and the clock is past none of the three.

  `batch_outcome`: as long as neither the deadline nor the flag falls together with anything
  else (`Apart`), a batch and every run of its select loop end in the closed form. `Apart` is
  needed: a worker that ends at the deadline is counted or abandoned.
-/

import Fleet.Proofs.Run.Batch
import Fleet.Proofs.Run.Tally
import Fleet.Run.Session

namespace Fleet

/-! ## The closed form -/

/-- Neither the deadline nor the flag comes together with the other, with the end of a
    worker or with the start of an empty batch. -/
structure Apart (start : Instant) (ws : List Worker) (deadline flag : Option Instant) : Prop where
  cuts : ∀ d ∈ deadline, d ∉ flag
  workers : ∀ w ∈ ws, ∀ u ∈ w.endTime?, u ∉ deadline ∧ u ∉ flag
  empty : ws = [] → start ∉ deadline ∧ start ∉ flag

/-- `time` is at `t`, and the others are later or never. -/
def First (t : Instant) (time : Option Instant) (others : List (Option Instant)) : Prop :=
  time = some t ∧ ∀ other ∈ others, ∀ u ∈ other, t < u

theorem First.not_mem {t now : Instant} {time : Option Instant} {others : List (Option Instant)}
    (h : First t time others) (le : ∀ u ∈ time, now ≤ u) : some now ∉ others :=
  fun mem => Nat.not_lt_of_le (le t h.1) (h.2 _ mem now rfl)

/-- One of the last end, the deadline and the flag comes before the other two. -/
def Decided (start : Instant) (ws : List Worker) (deadline flag : Option Instant) : Prop :=
  ∃ t, First t (lastEnd? start ws) [deadline, flag] ∨ First t deadline [lastEnd? start ws, flag] ∨
    First t flag [lastEnd? start ws, deadline]

/-- What comes of workers that are started at `start`: of the last end, the deadline and the
    flag, the first decides. -/
structure ClosedForm (start : Instant) (ws : List Worker) (deadline flag : Option Instant) (clock : Instant)
    (summary : BatchSummary) : Prop where
  ended : ∀ t, First t (lastEnd? start ws) [deadline, flag] →
    clock = t ∧ endedBy t ws = ws ∧ summary = tally ws.length (endedBy t ws)
  abandoned : ∀ t, First t deadline [lastEnd? start ws, flag] →
    clock = t ∧ summary = { tally ws.length (endedBy t ws) with timedOut := .ofNat (runningAt t ws) }
  interrupted : ∀ t, First t flag [lastEnd? start ws, deadline] →
    clock = t ∧ summary = { tally ws.length (endedBy t ws) with interrupted := true }

theorem exists_earliest {times : List (Option Instant)} {t : Instant} (h : some t ∈ times) :
    ∃ first, some first ∈ times ∧ ∀ time ∈ times, ∀ u ∈ time, first ≤ u := by
  induction t using Nat.strongRecOn with
  | ind t ih =>
    by_cases earlier : ∃ u < t, some u ∈ times
    · obtain ⟨u, lt, hu⟩ := earlier
      exact ih u lt hu
    · refine ⟨t, h, fun time htime u hu => Nat.le_of_not_lt fun lt => earlier ⟨u, lt, ?_⟩⟩
      obtain rfl : time = some u := hu
      exact htime

namespace Apart

variable {start : Instant} {ws : List Worker} {deadline flag : Option Instant}

theorem last (apart : Apart start ws deadline flag) (ahead : ∀ w ∈ ws, ∀ u ∈ w.endTime?, start ≤ u) :
    ∀ l ∈ lastEnd? start ws, l ∉ deadline ∧ l ∉ flag := by
  intro l hl
  rcases lastEnd_attained ahead hl with ⟨hnil, rfl⟩ | ⟨w, hw, hend⟩
  · exact apart.empty hnil
  · exact apart.workers w hw l hend

/-- One of the three is first, if any of them ever comes. -/
theorem decided (apart : Apart start ws deadline flag) (ahead : ∀ w ∈ ws, ∀ u ∈ w.endTime?, start ≤ u)
    (comes : (lastEnd? start ws).isSome ∨ deadline.isSome ∨ flag.isSome) :
    Decided start ws deadline flag := by
  obtain ⟨t, ht⟩ : ∃ t, some t ∈ [lastEnd? start ws, deadline, flag] := by
    simp only [Option.isSome_iff_exists] at comes
    rcases comes with ⟨t, h⟩ | ⟨t, h⟩ | ⟨t, h⟩ <;> exact ⟨t, by simp [h]⟩
  obtain ⟨t, ht, least⟩ := exists_earliest ht
  have hl := least (lastEnd? start ws) (by simp)
  have hd := least deadline (by simp)
  have hf := least flag (by simp)
  have strict {time : Option Instant} (le : ∀ u ∈ time, t ≤ u) (ne : t ∉ time) : ∀ u ∈ time, t < u :=
    fun u hu => Nat.lt_of_le_of_ne (le u hu) fun e => ne (e ▸ hu)
  have two {a b : Option Instant} (ha : ∀ u ∈ a, t < u) (hb : ∀ u ∈ b, t < u) : ∀ c ∈ [a, b], ∀ u ∈ c, t < u := by
    simpa using ⟨ha, hb⟩
  refine ⟨t, ?_⟩
  simp only [List.mem_cons, List.not_mem_nil, or_false] at ht
  rcases ht with h | h | h
  · obtain ⟨nd, nf⟩ := apart.last ahead t h.symm
    exact .inl ⟨h.symm, two (strict hd nd) (strict hf nf)⟩
  · have nl : t ∉ lastEnd? start ws := fun e => (apart.last ahead t e).1 h.symm
    exact .inr (.inl ⟨h.symm, two (strict hl nl) (strict hf (apart.cuts t h.symm))⟩)
  · have nl : t ∉ lastEnd? start ws := fun e => (apart.last ahead t e).2 h.symm
    have nd : t ∉ deadline := fun e => apart.cuts t e h.symm
    exact .inr (.inr ⟨h.symm, two (strict hl nl) (strict hd nd)⟩)

end Apart

namespace ClosedForm

variable {start clock clock' : Instant} {ws : List Worker} {deadline flag : Option Instant}
  {summary summary' : BatchSummary}

theorem unique (form : ClosedForm start ws deadline flag clock summary)
    (form' : ClosedForm start ws deadline flag clock' summary')
    (decided : Decided start ws deadline flag) : clock' = clock ∧ summary' = summary := by
  obtain ⟨t, ht | ht | ht⟩ := decided
  · obtain ⟨rfl, -, rfl⟩ := form.ended t ht
    obtain ⟨rfl, -, rfl⟩ := form'.ended _ ht
    exact ⟨rfl, rfl⟩
  · obtain ⟨rfl, rfl⟩ := form.abandoned t ht
    exact form'.abandoned _ ht
  · obtain ⟨rfl, rfl⟩ := form.interrupted t ht
    exact form'.interrupted _ ht

/-- Whatever comes first, the workers that have ended by then are those that are counted. -/
theorem counters (form : ClosedForm start ws deadline flag clock summary)
    (decided : Decided start ws deadline flag) :
    summary = { tally ws.length (endedBy clock ws) with
      timedOut := summary.timedOut, interrupted := summary.interrupted } := by
  obtain ⟨t, ht | ht | ht⟩ := decided
  · obtain ⟨rfl, -, rfl⟩ := form.ended t ht
    rfl
  · obtain ⟨rfl, rfl⟩ := form.abandoned t ht
    rfl
  · obtain ⟨rfl, rfl⟩ := form.interrupted t ht
    rfl

end ClosedForm

/-! ## What holds at every turn -/

section Loop

open Select

variable {raised deadline : Option Instant} {start : Instant} {ws : List Worker}

/-- At every turn of the loop the workers that are not left have ended and been counted, and
    nothing that could end the loop is past. -/
structure Counted (raised deadline : Option Instant) (start : Instant) (ws : List Worker) (s : Waiting) : Prop where
  joined : ∃ joined, (joined ++ s.left).Perm ws ∧ (∀ w ∈ joined, Due w.endTime? s.now) ∧
    s.summary = tally ws.length joined
  begun : start ≤ s.now
  ahead : ∀ w ∈ s.left, ∀ u ∈ w.endTime?, s.now ≤ u
  last : ∀ u ∈ lastEnd? start ws, s.now ≤ u
  cut : ∀ c : Cut, ∀ u ∈ c.time? raised deadline, s.now ≤ max start u

theorem Counted.init (ahead : ∀ w ∈ ws, ∀ u ∈ w.endTime?, start ≤ u) (said : List Event) :
    Counted raised deadline start ws ⟨start, ws, tally ws.length [], said⟩ where
  joined := ⟨[], by simp, by simp, rfl⟩
  begun := Nat.le_refl _
  ahead := ahead
  last := fun _ h => start_le_lastEnd h
  cut := fun _ _ _ => Nat.le_max_left _ _

theorem Counted.step {s s' : Waiting} (inv : Counted raised deadline start ws s) (step : Step raised deadline s s') :
    Counted raised deadline start ws s' := by
  obtain ⟨joined, perm, ended, counted⟩ := inv.joined
  cases step with
  | pass t lt quiet ready =>
    -- whatever makes a branch ready comes at `t` or later
    have le {u : Instant} (hu : s.now ≤ u) (h : Ready raised deadline s.left u) : t ≤ u :=
      Nat.le_of_not_lt fun hlt => quiet u hu hlt h
    refine ⟨⟨joined, perm, fun w hw => (ended w hw).mono (Nat.le_of_lt lt), counted⟩,
      Nat.le_trans inv.begun (Nat.le_of_lt lt), fun w hw u hu => ?_, fun u hu => ?_, fun c u hu => ?_⟩
    · exact le (inv.ahead w hw u hu) (.inr (.inl ⟨w, hw, u, hu, Nat.le_refl _⟩))
    · obtain ⟨w, hw⟩ : ∃ w, w ∈ s.left :=
        List.exists_mem_of_ne_nil _ fun e => quiet s.now (Nat.le_refl _) lt (.inl e)
      have hdue := due_lastEnd hu w (perm.mem_iff.mp (List.mem_append_right _ hw))
      exact le (inv.last u hu) (.inr (.inl ⟨w, hw, hdue⟩))
    · exact le (inv.cut c u hu) (.inr (.inr ⟨c, u, hu, Nat.le_max_right _ _⟩))
  | join w rest time ending left hw le =>
    have hend := Worker.endTime?_of_ends hw
    refine ⟨⟨w :: joined, ?_, ?_, ?_⟩, inv.begun, fun w' hw' => ?_, inv.last, inv.cut⟩
    · exact List.perm_middle.symm.trans ((left.symm.append_left joined).trans perm)
    · exact List.forall_mem_cons.mpr ⟨⟨time, hend, le⟩, ended⟩
    · show s.summary.record ending = _
      rw [counted, record_tally hw]
    · exact inv.ahead w' (left.mem_iff.mpr (List.mem_cons_of_mem _ hw'))

theorem Counted.steps {s s' : Waiting} (inv : Counted raised deadline start ws s)
    (steps : Relation.ReflTransGen (Step raised deadline) s s') : Counted raised deadline start ws s' := by
  induction steps with
  | refl => exact inv
  | tail _ step ih => exact ih.step step

/-! ## Ends of the loop -/

theorem Counted.close {s : Waiting} (inv : Counted raised deadline start ws s)
    (alone : ∀ w ∈ ws, ∀ u ∈ w.endTime?, u ≠ s.now) :
    s.summary = tally ws.length (endedBy s.now ws) ∧ s.left.length = runningAt s.now ws := by
  obtain ⟨joined, perm, ended, counted⟩ := inv.joined
  have running : ∀ w ∈ s.left, ¬Due w.endTime? s.now := by
    rintro w hw ⟨u, hu, le⟩
    have hws := perm.mem_iff.mp (List.mem_append_right _ hw)
    exact alone w hws u hu (Nat.le_antisymm le (inv.ahead w hw u hu))
  obtain ⟨hperm, hlen⟩ := split_at perm ended running
  exact ⟨by rw [counted, tally_perm _ hperm], hlen⟩

theorem Counted.done {s : Waiting} (inv : Counted raised deadline start ws s) (hl : s.left = []) :
    lastEnd? start ws = some s.now ∧ endedBy s.now ws = ws ∧ s.summary = tally ws.length ws := by
  obtain ⟨joined, perm, ended, counted⟩ := inv.joined
  rw [hl, List.append_nil] at perm
  have due : ∀ w ∈ ws, Due w.endTime? s.now := fun w hw => ended w (perm.mem_iff.mpr hw)
  obtain ⟨last, hlast, le⟩ := lastEnd?_le inv.begun due
  refine ⟨?_, List.filter_eq_self.mpr fun w hw => any_le_iff_due.mpr (due w hw), ?_⟩
  · rw [hlast, Nat.le_antisymm le (inv.last last hlast)]
  · rw [counted, tally_perm _ perm]

theorem comes_cases (comes : (lastEnd? start ws).isSome ∨ deadline.isSome ∨ (raised.map (max start)).isSome) :
    (∃ tc, Cut.first? raised deadline = some tc) ∨ ∀ w ∈ ws, ∃ u, w.endTime? = some u := by
  simp only [Option.isSome_map, Option.isSome_iff_exists] at comes
  rcases comes with ⟨last, hl⟩ | ⟨d, hd⟩ | ⟨z, hz⟩
  · refine .inr fun w hw => ?_
    obtain ⟨u, hu, -⟩ := due_lastEnd hl w hw
    exact ⟨u, hu⟩
  · obtain ⟨t, c, hc⟩ := Cut.exists_first? .deadline hd
    exact .inl ⟨(t, c), hc⟩
  · obtain ⟨t, c, hc⟩ := Cut.exists_first? .shutdown hz
    exact .inl ⟨(t, c), hc⟩

/-- From every turn the loop can go on to an end, if anything it waits for comes. -/
theorem Counted.returns {s : Waiting} (inv : Counted raised deadline start ws s)
    (comes : (∃ tc, Cut.first? raised deadline = some tc) ∨ ∀ w ∈ ws, ∃ u, w.endTime? = some u) :
    ∃ clock summary said, Returns raised deadline s clock summary said := by
  obtain ⟨joined, perm, -, -⟩ := inv.joined
  have left {w : Worker} (hw : w ∈ Worker.inEndOrder s.left) : w ∈ s.left := (Worker.inEndOrder_perm _).mem_iff.mp hw
  obtain ⟨events, clock, summary, hwait⟩ := wait_ends (comes.imp_right fun all w hw =>
    all w (perm.mem_iff.mp (List.mem_append_right _ (left hw))))
  exact ⟨clock, summary, s.said ++ events, wait_returns (Worker.inEndOrder_pairwise _) (Worker.inEndOrder_perm _).symm
    (fun w hw => inv.ahead w (left hw)) hwait⟩

theorem Counted.closedForm {s : Waiting} {summary : BatchSummary} {said : List Event}
    (inv : Counted raised deadline start ws s) (started : ∀ d ∈ deadline, start ≤ d)
    (apart : Apart start ws deadline (raised.map (max start))) (stop : Stop raised deadline s summary said) :
    ClosedForm start ws deadline (raised.map (max start)) s.now summary := by
  have hd : ∀ d ∈ deadline, s.now ≤ d := fun d hd => by
    have := inv.cut .deadline d hd
    rwa [Nat.max_eq_right (started d hd)] at this
  have hf : ∀ z ∈ raised.map (max start), s.now ≤ z := by
    intro z hz
    obtain ⟨u, hu, rfl⟩ := Option.map_eq_some_iff.mp hz
    exact inv.cut .shutdown u hu
  cases stop with
  | done hl =>
    obtain ⟨hlast, hended, hsum⟩ := inv.done hl
    refine ⟨fun t h => ?_, fun t h => ?_, fun t h => ?_⟩
    · obtain rfl : s.now = t := Option.some.inj (hlast.symm.trans h.1)
      exact ⟨rfl, hended, by rw [hended, hsum]⟩
    · exact (h.not_mem hd (by simp [hlast])).elim
    · exact (h.not_mem hf (by simp [hlast])).elim
  | cut c due =>
    obtain ⟨u, hu, le⟩ := due
    cases c with
    | shutdown =>
      have hz : raised.map (max start) = some s.now :=
        Option.map_eq_some_iff.mpr ⟨u, hu, Nat.le_antisymm (Nat.max_le.mpr ⟨inv.begun, le⟩) (inv.cut _ u hu)⟩
      obtain ⟨hsum, -⟩ := inv.close fun w hw v hv e => (apart.workers w hw v hv).2 (e ▸ hz)
      refine ⟨fun t h => ?_, fun t h => ?_, fun t h => ?_⟩
      · exact (h.not_mem inv.last (by simp [hz])).elim
      · exact (h.not_mem hd (by simp [hz])).elim
      · obtain rfl : s.now = t := Option.some.inj (hz.symm.trans h.1)
        exact ⟨rfl, by rw [Cut.close, hsum]⟩
    | deadline =>
      have hz : deadline = some s.now := hu.trans (congrArg some (Nat.le_antisymm le (hd u hu)))
      obtain ⟨hsum, hrun⟩ := inv.close fun w hw v hv e => (apart.workers w hw v hv).1 (e ▸ hz)
      refine ⟨fun t h => ?_, fun t h => ?_, fun t h => ?_⟩
      · exact (h.not_mem inv.last (by simp [hz])).elim
      · obtain rfl : s.now = t := Option.some.inj (hz.symm.trans h.1)
        exact ⟨rfl, by rw [Cut.close, hsum, hrun]⟩
      · exact (h.not_mem hf (by simp [hz])).elim

end Loop

/-! ## Batches -/

variable {σ : Type}

/-- From when on in a batch the shutdown flag is up: not before the batch has started. -/
def Host.batchFlag (h : Host σ) (raised : Option Instant) (now : Instant) (place : σ) (commands : List Command) :
    Option Instant :=
  (h.batchRaised raised now place commands).map (max now)

/-- A batch starts one worker for each command and returns in the closed form, with exact
    counters unless they wrap, if the clock holds its deadline and there is something to
    wait for. Every run of its select loop, whatever it takes up first of what is ready at
    one instant, comes to the same end.

    A flag that is raised before the batch counts from its start (`Host.batchFlag`). So
    `Apart` leaves out ties at the start as well: with the flag already up, a worker that is
    done as it is started, and a timeout of zero. -/
theorem batch_outcome (h : Host σ) (pacing : Pacing) (raised : Option Instant) (now : Instant) (place : σ)
    (commands : List Command)
    (ahead : ∀ w ∈ h.batchWorkers now place commands, ∀ u ∈ w.endTime?, now ≤ u)
    (holds : ∀ length ∈ pacing.timeout, now + length < Clock.horizon)
    (apart : Apart now (h.batchWorkers now place commands) (pacing.deadline now)
      (h.batchFlag raised now place commands))
    (comes : (lastEnd? now (h.batchWorkers now place commands)).isSome ∨ (pacing.deadline now).isSome ∨
      (h.batchFlag raised now place commands).isSome) :
    let ws := h.batchWorkers now place commands
    let deadline := pacing.deadline now
    let flag := h.batchFlag raised now place commands
    let ran := h.batch pacing raised now place commands
    ws.map (·.slot) = commands.map (·.slot) ∧ (∀ w ∈ ws, w.started = now) ∧
    Decided now ws deadline flag ∧
    ∃ summary, ran.result = .ok summary ∧ ClosedForm now ws deadline flag ran.clock summary ∧
      (commands.length < UInt32.size → summary.launched.toNat = commands.length ∧
        summary.succeeded.toNat = count .succeeded (endedBy ran.clock ws) ∧
        summary.failed.toNat = count .failed (endedBy ran.clock ws) ∧
        summary.startFailed.toNat = count .neverRan (endedBy ran.clock ws)) ∧
      Select.Terminates (h.batchRaised raised now place commands) deadline
        ⟨now, ws, { launched := .ofNat commands.length }, []⟩ ∧
      ∀ clock' summary' said, Select.Returns (h.batchRaised raised now place commands) deadline
        ⟨now, ws, { launched := .ofNat commands.length }, []⟩ clock' summary' said →
        clock' = ran.clock ∧ summary' = summary := by
  intro ws deadline flag ran
  have length : ws.length = commands.length := h.length_batchWorkers now place commands
  have init : ({ launched := .ofNat commands.length } : BatchSummary) = tally ws.length [] := by rw [length]; rfl
  have decided := apart.decided ahead comes
  have comes := comes_cases comes
  -- every run of the loop is in the closed form, the wait of the batch among them
  have counted {s : Waiting} (steps : Relation.ReflTransGen (Select.Step (h.batchRaised raised now place commands)
      deadline) ⟨now, ws, { launched := .ofNat commands.length }, []⟩ s) :
      Counted (h.batchRaised raised now place commands) deadline now ws s := by
    rw [init] at steps
    exact (Counted.init ahead []).steps steps
  have form {clock : Instant} {summary : BatchSummary} {said : List Event}
      (returns : Select.Returns (h.batchRaised raised now place commands) deadline
        ⟨now, ws, { launched := .ofNat commands.length }, []⟩ clock summary said) :
      ClosedForm now ws deadline flag clock summary := by
    obtain ⟨s, steps, rfl, stop⟩ := returns
    exact (counted steps).closedForm (pacing.le_deadline now) apart stop
  obtain ⟨events, clock, summary, hwait⟩ : ∃ events clock summary,
      h.batchWait pacing raised now place commands = (events, some (clock, summary)) :=
    wait_ends (comes.imp_right fun all w hw => all w ((Worker.inEndOrder_perm _).mem_iff.mp hw))
  have hran : ran = _ := Host.batch_of_wait holds hwait
  have hform : ClosedForm now ws deadline flag ran.clock summary := by
    rw [hran]
    exact form (Host.batchWait_returns ahead hwait)
  refine ⟨h.map_slot_batchWorkers now place commands, fun _ => h.started_of_mem_batchWorkers now, decided, summary,
    by rw [hran], hform, fun fits => ?_, ⟨Select.acc_step _, fun s steps => (counted steps).returns comes⟩,
    fun clock' summary' said returns => hform.unique (form returns) decided⟩
  have counts := toNat_tally (length ▸ fits) (List.length_filter_le _ ws : (endedBy ran.clock ws).length ≤ ws.length)
  rw [hform.counters decided, ← length]
  exact counts

/-- One worker succeeds, one is killed and one hangs past the deadline, before the flag. -/
theorem batch_outcome_hung :
    let h := Host.scripted [⟨10, some (.exited (some 0))⟩, ⟨10, some (.exited none)⟩, ⟨0, none⟩]
    let commands : List Command :=
      [⟨.client, 0, "c", [], .inherit⟩, ⟨.client, 1, "c", [], .inherit⟩, ⟨.client, 2, "c", [], .inherit⟩]
    let ran := h.batch { timeout := some 15 } (some 40) 5 0 commands
    let summary : BatchSummary := { launched := 3, succeeded := 1, failed := 1, timedOut := 1 }
    ran.clock = 20 ∧ ran.result = .ok summary ∧
      ∀ clock' summary' said, Select.Returns (some 40) (some 20)
        ⟨5, h.batchWorkers 5 0 commands, { launched := 3 }, []⟩ clock' summary' said →
        clock' = 20 ∧ summary' = summary := by
  intro h commands ran summary
  obtain ⟨-, -, -, s, hs, form, -, -, all⟩ := batch_outcome h { timeout := some 15 } (some 40) 5 0 commands (by decide)
    (by decide) ⟨by decide, by decide, by decide⟩ (by decide)
  obtain ⟨hclock, rfl⟩ := form.abandoned 20 ⟨rfl, by decide⟩
  refine ⟨hclock, hs, fun clock' summary' said returns => ?_⟩
  rw [← hclock]
  exact all clock' summary' said returns

/-- A worker that ends at the very deadline may be counted, and may be abandoned. -/
example :
    let s : Waiting := ⟨0, [⟨0, 0, .ends 10 (.exited (some 0))⟩], { launched := 1 }, []⟩
    (∃ said, Select.Returns none (some 10) s 10 { launched := 1, succeeded := 1 } said) ∧
      ∃ said, Select.Returns none (some 10) s 10 { launched := 1, timedOut := 1 } said := by
  intro s
  have workers : ∀ w ∈ s.left, ∀ v ∈ w.endTime?, 10 ≤ v := by decide
  constructor
  · refine ⟨_, .head (join_steps (.refl _) rfl (Nat.zero_le _) workers fun c v hv => ?_) ⟨_, .refl, rfl, .done _ rfl⟩⟩
    cases c <;> cases hv
    exact Nat.le_refl 10
  · exact ⟨_, close_returns (s := s) (t := 10) (c := .deadline) rfl (by decide) workers⟩

end Fleet

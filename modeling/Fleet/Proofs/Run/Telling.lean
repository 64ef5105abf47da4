/-
  Fleet.Proofs.Run.Telling — the log and the summary of a batch tell the same story.

  A worker that has ended is complained about, unless it succeeded (`Worker.complaint?`), and
  counted. The two are done side by side, so at every turn of a wait what has been complained
  about and what has been counted are the same workers: those that were joined, in the order in
  which they were (`Gathered`). What ends the wait is said last, if it is a cut, and the
  summary has it too (`Story`).

  `Gathered` holds of `wait`, of the select loop and of the loop in a world with a sender, since
  all three join workers one at a time. So `Host.Tells` holds of every batch.
-/

import Fleet.Proofs.Run.Playing
import Fleet.Proofs.Run.Tally

namespace Fleet

/-! ## What is said -/

namespace Event

def isNotice (e : Event) : Bool := e.level == .info || e.level == .warn

def isDidNotRun : Event → Bool
  | .didNotRun .. => true
  | _ => false

def isFailure : Event → Bool
  | .exitedBadly .. | .waitFailed => true
  | _ => false

theorem isNotice_of_isDidNotRun {e : Event} (h : e.isDidNotRun = true) : e.isNotice = true := by
  cases e <;> first | rfl | cases h

theorem isNotice_of_isFailure {e : Event} (h : e.isFailure = true) : e.isNotice = true := by
  cases e <;> first | rfl | cases h

end Event

def notices (events : List Event) : List Event := events.filter Event.isNotice

theorem notices_append (a b : List Event) : notices (a ++ b) = notices a ++ notices b := List.filter_append ..

theorem countP_notices {p : Event → Bool} (loud : ∀ e, p e = true → e.isNotice = true) (events : List Event) :
    (notices events).countP p = events.countP p := by
  rw [notices, List.countP_filter]
  refine List.countP_congr fun e _ => ?_
  simpa using loud e

@[simp] theorem eventsOf_append (a b : List Act) : eventsOf (a ++ b) = eventsOf a ++ eventsOf b := List.filterMap_append

@[simp] theorem eventsOf_cons_say (e : Event) (acts : List Act) : eventsOf (.say e :: acts) = e :: eventsOf acts := rfl

@[simp] theorem eventsOf_say (events : List Event) : eventsOf (events.map .say) = events := by
  induction events with
  | nil => rfl
  | cons e rest ih => exact congrArg (e :: ·) ih

/-! ## Complaints -/

/-- What is complained of about a worker that has ended. -/
def Worker.complaint? (w : Worker) : Option Event :=
  match w.fate with
  | .never | .ends _ (.exited (some 0)) => none
  | .ends _ (.exited code) => some (.exitedBadly w.slot code)
  | .ends _ (.notStarted error) => some (.didNotRun w.slot error)
  | .ends _ .lost => some .waitFailed

def Cut.notice (running : Nat) : Cut → Event
  | .shutdown => .leftRunning running
  | .deadline => .abandoned (.ofNat running)

namespace Worker

variable {w : Worker} {time : Instant} {ending : Ending}

theorem notices_farewell (h : w.fate = .ends time ending) (remaining : Nat) :
    notices (w.farewell remaining ending) = w.complaint?.toList := by
  unfold complaint? farewell
  rw [h]
  cases ending with
  | exited code =>
    by_cases zero : code = some 0
    · subst zero
      rfl
    · have failed : (Ending.exited code).isSuccess = false := by simpa [Ending.isSuccess] using zero
      rw [failed]
      split <;> simp_all [notices, Event.isNotice, Event.level]
  | notStarted error => rfl
  | lost => rfl

theorem complaint_verdict (w : Worker) :
    w.complaint?.any Event.isDidNotRun = (w.verdict? == some .neverRan) ∧
      w.complaint?.any Event.isFailure = (w.verdict? == some .failed) := by
  unfold complaint? verdict?
  cases w.fate with
  | never => exact ⟨rfl, rfl⟩
  | ends time ending =>
    cases ending with
    | exited code =>
      rcases code with _ | ⟨_ | _⟩ | _ <;> exact ⟨rfl, rfl⟩
    | notStarted error => exact ⟨rfl, rfl⟩
    | lost => exact ⟨rfl, rfl⟩

end Worker

theorem countP_filterMap_complaint {p : Event → Bool} {v : Verdict}
    (said : ∀ w : Worker, w.complaint?.any p = (w.verdict? == some v)) (gone : List Worker) :
    (gone.filterMap Worker.complaint?).countP p = count v gone := by
  rw [List.countP_filterMap]
  refine List.countP_congr fun w _ => ?_
  rw [← said w]
  cases w.complaint? <;> rfl

/-! ## Gathering -/

/-- What holds at every turn of a wait for `ws`: the workers joined so far have ended, have been
    complained about in the order in which they were joined, and have been counted. -/
structure Gathered (launched : Nat) (ws : List Worker) (s : Waiting) (gone : List Worker) : Prop where
  workers : (gone ++ s.left).Perm ws
  ended : ∀ w ∈ gone, Due w.endTime? s.now
  told : notices s.said = gone.filterMap Worker.complaint?
  summary : s.summary = tally launched gone

namespace Gathered

variable {launched : Nat} {ws gone : List Worker} {s : Waiting}

theorem begin (launched : Nat) (now : Instant) (ws : List Worker) :
    Gathered launched ws ⟨now, ws, { launched := .ofNat launched }, []⟩ [] where
  workers := .refl _
  ended := nofun
  told := rfl
  summary := rfl

theorem pass (h : Gathered launched ws s gone) {t : Instant} (le : s.now ≤ t) :
    Gathered launched ws { s with now := t } gone where
  workers := h.workers
  ended := fun w hw => (h.ended w hw).mono le
  told := h.told
  summary := h.summary

theorem join (h : Gathered launched ws s gone) {w : Worker} {rest : List Worker} {time t : Instant} {ending : Ending}
    (perm : s.left.Perm (w :: rest)) (hw : w.fate = .ends time ending) (le : time ≤ t)
    (due : ∀ g ∈ gone, Due g.endTime? t) :
    Gathered launched ws ⟨t, rest, s.summary.record ending, s.said ++ w.farewell rest.length ending⟩ (gone ++ [w]) where
  workers := by
    rw [List.append_assoc, List.singleton_append]
    exact (perm.symm.append_left gone).trans h.workers
  ended := by
    intro g hg
    rcases List.mem_append.mp hg with hg | hg
    · exact due g hg
    · obtain rfl := List.mem_singleton.mp hg
      exact ⟨time, Worker.endTime?_of_ends hw, le⟩
  told := by
    rw [notices_append, h.told, Worker.notices_farewell hw, List.filterMap_append]
    cases hc : w.complaint? <;> simp [hc]
  summary := by
    rw [h.summary, record_tally hw]
    exact tally_perm launched (List.perm_append_singleton w gone).symm

theorem step {flag deadline : Option Instant} {s' : Waiting} (h : Gathered launched ws s gone)
    (step : Select.Step flag deadline s s') : ∃ more, Gathered launched ws s' (gone ++ more) := by
  cases step with
  | pass t lt _ _ => exact ⟨[], by simpa using h.pass (Nat.le_of_lt lt)⟩
  | join w rest time ending perm hw le => exact ⟨[w], h.join perm hw le h.ended⟩

theorem steps {flag deadline : Option Instant} {s' : Waiting} (h : Gathered launched ws s gone)
    (steps : Relation.ReflTransGen (Select.Step flag deadline) s s') :
    ∃ more, Gathered launched ws s' (gone ++ more) := by
  induction steps with
  | refl => exact ⟨[], by simpa using h⟩
  | tail _ next ih =>
    obtain ⟨more, h'⟩ := ih
    obtain ⟨more', h''⟩ := h'.step next
    exact ⟨more ++ more', by simpa using h''⟩

end Gathered

/-! ## The story of a batch -/

/-- What a batch of `ws` that has returned says and counts: the complaints about the workers that
    are `gone`, and last the cut that ended it, if one did, with the others `left`. -/
structure Story (ws : List Worker) (came : Cut → Prop) (clock : Instant) (summary : BatchSummary) (said : List Event)
    (gone left : List Worker) (stop : Option Cut) : Prop where
  workers : (gone ++ left).Perm ws
  ended : ∀ w ∈ gone, Due w.endTime? clock
  told : notices said = gone.filterMap Worker.complaint? ++ (stop.map (Cut.notice left.length)).toList
  startFailed : summary.startFailed = .ofNat (said.countP Event.isDidNotRun)
  failed : summary.failed = .ofNat (said.countP Event.isFailure)
  exact : ws.length < UInt32.size →
    said.countP Event.isDidNotRun = summary.startFailed.toNat ∧ said.countP Event.isFailure = summary.failed.toNat ∧
      (summary.failed + summary.startFailed).toNat = summary.failed.toNat + summary.startFailed.toNat
  stopped : ∀ c ∈ stop, came c
  whole : stop = none → left = []
  interrupted : summary.interrupted = true ↔ stop = some .shutdown
  timedOut : summary.timedOut = if stop = some .deadline then .ofNat left.length else 0

theorem count_failed_add_count_neverRan_le (ws : List Worker) :
    count .failed ws + count .neverRan ws ≤ ws.length := by
  induction ws with
  | nil => exact Nat.le_refl _
  | cons w rest ih =>
    rw [count_cons, count_cons, List.length_cons]
    by_cases failed : w.verdict? = some .failed
    · simp only [failed, if_true, Option.some.injEq, reduceCtorEq, if_false]
      omega
    · rw [if_neg failed]
      split <;> omega

namespace Gathered

variable {ws gone : List Worker} {s : Waiting} {came : Cut → Prop}

theorem story {said : List Event} {summary : BatchSummary} {stop : Option Cut} (h : Gathered ws.length ws s gone)
    (hsaid : said = s.said ++ (stop.map (Cut.notice s.left.length)).toList)
    (hsummary : summary = (stop.map fun c => (c.close s.left.length s.summary).2).getD s.summary)
    (stopped : ∀ c ∈ stop, came c) (whole : stop = none → s.left = []) :
    Story ws came s.now summary said gone s.left stop := by
  have told : notices said = gone.filterMap Worker.complaint? ++ (stop.map (Cut.notice s.left.length)).toList := by
    rw [hsaid, notices_append, h.told]
    rcases stop with _ | _ | _ <;> rfl
  have counted {p : Event → Bool} {v : Verdict} (loud : ∀ e, p e = true → e.isNotice = true)
      (quiet : ∀ c : Cut, p (c.notice s.left.length) = false)
      (verdict : ∀ w : Worker, w.complaint?.any p = (w.verdict? == some v)) : said.countP p = count v gone := by
    rw [← countP_notices loud, told, List.countP_append, countP_filterMap_complaint verdict]
    cases stop <;> simp [quiet]
  have didNotRun := counted (fun _ => Event.isNotice_of_isDidNotRun) (fun c => by cases c <;> rfl)
    fun w => w.complaint_verdict.1
  have failures := counted (fun _ => Event.isNotice_of_isFailure) (fun c => by cases c <;> rfl)
    fun w => w.complaint_verdict.2
  have counters : summary.startFailed = .ofNat (count .neverRan gone) ∧ summary.failed = .ofNat (count .failed gone) := by
    rw [hsummary, h.summary]
    rcases stop with _ | _ | _ <;> exact ⟨rfl, rfl⟩
  refine ⟨h.workers, h.ended, told, didNotRun ▸ counters.1, failures ▸ counters.2, fun fits => ?_, stopped, whole, ?_, ?_⟩
  · have le : count .failed gone + count .neverRan gone ≤ ws.length := by
      have := count_failed_add_count_neverRan_le gone
      have := h.workers.length_eq
      rw [List.length_append] at this
      omega
    have few : count .neverRan gone < UInt32.size := by omega
    have fewer : count .failed gone < UInt32.size := by omega
    rw [didNotRun, failures, counters.1, counters.2, ← UInt32.ofNat_add, UInt32.toNat_ofNat_of_lt' few,
      UInt32.toNat_ofNat_of_lt' fewer, UInt32.toNat_ofNat_of_lt' (by omega)]
    exact ⟨rfl, rfl, rfl⟩
  · rw [hsummary, h.summary]
    rcases stop with _ | _ | _ <;> simp [tally, Cut.close]
  · rw [hsummary, h.summary]
    rcases stop with _ | _ | _ <;> simp [tally, Cut.close]

theorem stop {flag deadline : Option Instant} {summary : BatchSummary} {said : List Event}
    (h : Gathered ws.length ws s gone) (stop : Select.Stop flag deadline s summary said) :
    ∃ left stop, Story ws (fun c => Due (c.time? flag deadline) s.now) s.now summary said gone left stop := by
  cases stop with
  | done hleft => exact ⟨s.left, none, h.story (by simp) rfl nofun fun _ => hleft⟩
  | cut c due =>
    refine ⟨s.left, some c, h.story ?_ rfl ?_ nofun⟩
    · cases c <;> rfl
    · intro c' hc'
      cases hc'
      exact due

end Gathered

theorem Story.imp {ws gone left : List Worker} {came came' : Cut → Prop} {clock : Instant} {summary : BatchSummary}
    {said : List Event} {stop : Option Cut} (h : Story ws came clock summary said gone left stop)
    (imp : ∀ c, came c → came' c) : Story ws came' clock summary said gone left stop :=
  { h with stopped := fun c hc => imp c (h.stopped c hc) }

/-- What a wait for `ws` comes to is told: its story if it ends, and if it does not the complaints
    so far. -/
def Told (ws : List Worker) (came : Instant → Cut → Prop) : Waited → Prop
  | (said, some (clock, summary)) => ∃ gone left stop, Story ws (came clock) clock summary said gone left stop
  | (said, none) => ∃ gone left : List Worker, (gone ++ left).Perm ws ∧ (∀ w ∈ gone, w.endTime?.isSome) ∧
      notices said = gone.filterMap Worker.complaint?

/-! ## The three waits -/

namespace Gathered

variable {launched : Nat} {ws gone : List Worker} {s : Waiting} {came : Instant → Cut → Prop}

theorem told_of_endless (h : Gathered launched ws s gone) : Told ws came (s.said, none) := by
  refine ⟨gone, s.left, h.workers, fun w hw => ?_, h.told⟩
  obtain ⟨u, hu, -⟩ := h.ended w hw
  exact Option.isSome_of_mem hu

/-- Every run of the select loop tells its story. -/
theorem returns {flag deadline : Option Instant} {clock : Instant} {summary : BatchSummary} {said : List Event}
    (h : Gathered ws.length ws s gone) (returns : Select.Returns flag deadline s clock summary said) :
    Told ws (fun t c => Due (c.time? flag deadline) t) (said, some (clock, summary)) := by
  obtain ⟨last, steps, rfl, stop⟩ := returns
  obtain ⟨more, h'⟩ := h.steps steps
  exact ⟨_, h'.stop stop⟩

theorem waits {flag deadline : Option Instant} {rest : List Worker} {now : Instant} {summary : BatchSummary}
    {said : List Event} (h : Gathered ws.length ws ⟨now, rest, summary, said⟩ gone)
    (sorted : rest.Pairwise fun a b => a.before b = true) (before : ∀ g ∈ gone, ∀ w ∈ rest, g.before w = true) :
    Told ws (fun t c => Due (c.time? flag deadline) t) (said ++ (wait (Cut.first? flag deadline) rest now summary).1,
      (wait (Cut.first? flag deadline) rest now summary).2) := by
  induction rest generalizing gone now summary said with
  | nil => exact ⟨gone, [], none, h.story (by simp [wait]) rfl (by simp) fun _ => rfl⟩
  | cons w rest ih =>
    rcases wait_cases (Cut.first? flag deadline) w with ⟨t, c, hc, first⟩ | ⟨time, ending, hw, first⟩ | ⟨hw, hc⟩
    · rw [hc, wait_close first]
      refine ⟨gone, w :: rest, some c, (h.pass (Nat.le_max_left now t)).story ?_ rfl ?_ (by simp)⟩
      · cases c <;> rfl
      · intro c' hc'
        cases hc'
        exact ⟨t, Cut.time?_of_first?_some hc, Nat.le_max_right _ _⟩
    · rw [wait_join hw first, ← List.append_assoc]
      obtain ⟨first, sorted⟩ := List.pairwise_cons.mp sorted
      have due : ∀ g ∈ gone, Due g.endTime? time := fun g hg =>
        Worker.before_iff.mp (before g hg w List.mem_cons_self) time (Worker.endTime?_of_ends hw)
      refine ih (h.join (.refl _) hw (Nat.le_refl time) due) sorted fun g hg w' hw' => ?_
      rcases List.mem_append.mp hg with hg | hg
      · exact before g hg w' (List.mem_cons_of_mem _ hw')
      · obtain rfl := List.mem_singleton.mp hg
        exact first w' hw'
    · rw [hc, wait_endless hw, List.append_nil]
      exact h.told_of_endless

end Gathered

/-! ## Batches -/

def Command.announced (c : Command) (own : List Event) : List Event := .launching c.role c.slot c.line :: own

variable {σ : Type}

namespace Host

variable (h : Host σ) (now : Instant) (place : σ) (commands : List Command)

/-- What a host itself says of each command that it starts. -/
def remarks : σ → List Command → List (List Event)
  | _, [] => []
  | place, c :: rest => (h.start place now c).2.events :: remarks (h.start place now c).1 rest

theorem length_remarks : (h.remarks now place commands).length = commands.length := by
  induction commands generalizing place with
  | nil => rfl
  | cons c rest ih => exact congrArg (· + 1) (ih _)

theorem eventsOf_startAll : eventsOf (h.startAll now place commands).2 =
    (List.zipWith Command.announced commands (h.remarks now place commands)).flatten := by
  induction commands generalizing place with
  | nil => rfl
  | cons c rest ih =>
    simp only [startAll, eventsOf_append, eventsOf_say, ih, remarks, List.zipWith_cons_cons, List.flatten_cons]
    rfl

/-- A batch announces each of its commands, in order, and then tells what becomes of its workers. -/
def Tells (came : Instant → Cut → Prop) (ran : Ran σ BatchSummary) : Prop :=
  ∃ said, eventsOf ran.acts =
      (List.zipWith Command.announced commands (h.remarks now place commands)).flatten ++ said ∧
    Told (h.batchWorkers now place commands) came (said, ran.result.toOption.map (ran.clock, ·))

variable {h now place commands} {came : Instant → Cut → Prop}

theorem tells_waited {out : Waited} (told : Told (h.batchWorkers now place commands) came out) :
    h.Tells now place commands came (h.waited now place commands out) := by
  obtain ⟨said, _ | ⟨clock, summary⟩⟩ := out <;>
    exact ⟨said, by rw [waited, eventsOf_append, eventsOf_startAll, eventsOf_say], told⟩

theorem gathered_waiting : Gathered (h.batchWorkers now place commands).length (h.batchWorkers now place commands)
    (h.waiting now place commands) [] := by
  rw [waiting, ← h.length_batchWorkers now place commands]
  exact .begin _ now _

theorem returns_tells {flag deadline : Option Instant} {clock : Instant} {summary : BatchSummary} {said : List Event}
    (returns : Select.Returns flag deadline (h.waiting now place commands) clock summary said) :
    h.Tells now place commands (fun t c => Due (c.time? flag deadline) t)
      (h.waited now place commands (said, some (clock, summary))) :=
  tells_waited (gathered_waiting.returns returns)

/-- A batch as it is run tells its story, whatever its workers do. -/
theorem batch_tells (pacing : Pacing) (raised : Option Instant) :
    h.Tells now place commands
      (fun t c => Due (c.time? (h.batchRaised raised now place commands) (pacing.deadline now)) t)
      (h.batch pacing raised now place commands) := by
  have inOrder : Gathered (h.batchWorkers now place commands).length (h.batchWorkers now place commands)
      ⟨now, Worker.inEndOrder (h.batchWorkers now place commands), { launched := .ofNat commands.length }, []⟩ [] :=
    { gathered_waiting with workers := Worker.inEndOrder_perm _ }
  have told : Told (h.batchWorkers now place commands)
      (fun t c => Due (c.time? (h.batchRaised raised now place commands) (pacing.deadline now)) t)
      (h.batchWait pacing raised now place commands) := inOrder.waits (Worker.inEndOrder_pairwise _) nofun
  rcases h.batch_cases pacing raised now place commands with
    ⟨events, clock, summary, -, hwait, hb⟩ | ⟨events, hwait, hb⟩ | ⟨-, hb⟩
  · rw [hwait] at told
    exact hb ▸ tells_waited told
  · rw [hwait] at told
    exact hb ▸ tells_waited told
  · -- nothing is waited for
    refine ⟨[], ?_, ?_⟩ <;> rw [hb]
    · rw [eventsOf_startAll, List.append_nil]
    · exact gathered_waiting.told_of_endless

end Host

/-! ## Batches in a world -/

open Awaiting (Wakes)

theorem Awaiting.le_of_steps {W : Watch} {others : Instant → Prop} {a b : Awaiting W} (steps : Steps others a b) :
    a.now ≤ b.now := by
  induction steps with
  | refl => exact Nat.le_refl _
  | tail _ step ih =>
    cases step with
    | pass u lt => exact Nat.le_trans ih (Nat.le_of_lt lt)
    | _ => exact ih

theorem Awaiting.le_of_wakes {W : Watch} {w w' : World W} {now t : Instant} {others : Instant → Prop} {waker : Waker}
    (wakes : Wakes w now others t waker w') : now ≤ t := by
  obtain ⟨a, steps, rfl, -, -⟩ := wakes
  exact le_of_steps steps

/-- What ended a wait in a world that it has left as it is now: the flag was seen to be up, or it
    is the deadline. -/
def World.Came {W : Watch} (deadline : Option Instant) (w : World W) (t : Instant) : Cut → Prop
  | .shutdown => ∃ begun since others, Wakes begun since others t .flag w
  | .deadline => Due deadline t

namespace Play

variable {W : Watch} {w last : World W} {deadline : Option Instant} {ws gone : List Worker} {s : Waiting} {out : Waited}

theorem Loops.told (loops : Loops deadline w s last out) (h : Gathered ws.length ws s gone) :
    Told ws (last.Came deadline) out := by
  induction loops generalizing gone with
  | turn w mid last s next t out wakes step _ ih =>
    obtain ⟨more, h'⟩ := (h.pass (Awaiting.le_of_wakes wakes)).step step
    exact ih h'
  | stop w last s t summary said wakes stop =>
    obtain ⟨left, cause, story⟩ := (h.pass (Awaiting.le_of_wakes wakes)).stop stop
    refine ⟨_, left, cause, story.imp fun c due => ?_⟩
    cases c with
    | shutdown =>
      obtain ⟨u, hu, -⟩ := due
      cases hu
    | deadline => exact due
  | shutdown w last s t wakes =>
    refine ⟨gone, s.left, some .shutdown, (h.pass (Awaiting.le_of_wakes wakes)).story rfl rfl ?_ nofun⟩
    intro c hc
    cases hc
    exact ⟨w, s.now, _, wakes⟩
  | endless => exact h.told_of_endless

theorem Batches.tells {h : Host σ} {pacing : Pacing} {now : Instant} {place : σ} {commands : List Command}
    {ran : Ran σ BatchSummary} (batches : Batches h pacing w now place commands last ran) :
    h.Tells now place commands (last.Came (pacing.deadline now)) ran := by
  cases batches with
  | waits last out holds loops => exact Host.tells_waited (loops.told Host.gathered_waiting)
  | unheld => exact ⟨[], by simp [Host.eventsOf_startAll], Host.gathered_waiting.told_of_endless⟩

end Play

end Fleet

/-
  Fleet.Proofs.Run.Playing — a session with a shutdown flag that somebody else holds.

  Wherever a session waits, for a worker of a batch or for the end of a pause, it waits for
  the flag too, each time anew (`Awaiting.Wakes`), and goes on with whatever has ended the
  wait. `Loops` is the wait for a batch, `Batches` a batch, `Sweeps` a sweep and `Plays` a
  session. The sender's moves are made by the world while it waits, so they may come at any
  moment.

  Every wait ends alike in two worlds that show the same of the flag (`Alike.wakes`), and a
  session does nothing but go on with it. So it has the same plays in both (`Plays.alike`). One
  of them is what `Session.serveAll` does, wherever the world shows what the session's own
  switch does (`Session.plays`).
-/

import Fleet.Proofs.Run.Awaiting
import Fleet.Proofs.Run.Serving

namespace Fleet

variable {W : Watch} {σ α : Type}

/-! ## The loop and the flag -/

namespace Select

variable {raised deadline : Option Instant}

theorem Step.now_of_ready {s next : Waiting} (step : Step raised deadline s next)
    (ready : Ready raised deadline s.left s.now) : next.now = s.now := by
  cases step with
  | pass t lt quiet _ => exact (quiet s.now (Nat.le_refl _) lt ready).elim
  | join => rfl

theorem ready_iff {left : List Worker} {t : Instant} :
    Ready raised deadline left t ↔ Ready none deadline left t ∨ Due raised t := by
  constructor
  · intro ready
    rcases ready with empty | ended | ⟨c, due⟩
    · exact .inl (.inl empty)
    · exact .inl (.inr (.inl ended))
    · cases c with
      | shutdown => exact .inr due
      | deadline => exact .inl (.inr (.inr ⟨.deadline, due⟩))
  · intro ready
    rcases ready with (empty | ended | ⟨c, due⟩) | due
    · exact .inl empty
    · exact .inr (.inl ended)
    · cases c with
      | shutdown =>
        obtain ⟨z, hz, -⟩ := due
        cases hz
      | deadline => exact .inr (.inr ⟨.deadline, due⟩)
    · exact .inr (.inr ⟨.shutdown, due⟩)

end Select

/-! ## Runs and their waits -/

abbrev Waiting.others (s : Waiting) (deadline : Option Instant) : Instant → Prop := Select.Ready none deadline s.left

namespace Host

variable (h : Host σ) (now : Instant) (place : σ) (commands : List Command)

def waiting : Waiting := ⟨now, h.batchWorkers now place commands, { launched := .ofNat commands.length }, []⟩

def waited : Waited → Ran σ BatchSummary
  | (said, some (clock, summary)) =>
    ⟨(h.startAll now place commands).1, clock, (h.startAll now place commands).2 ++ said.map .say, .ok summary⟩
  | (said, none) =>
    ⟨(h.startAll now place commands).1, now, (h.startAll now place commands).2 ++ said.map .say, .error .endless⟩

end Host

abbrev Pacing.Over (pacing : Pacing) (since t : Instant) : Prop := Clock.pauseEnd since pacing.settle ≤ t

def Ran.alone (ran : Ran σ BatchSummary) : Ran σ SweepSummary :=
  { ran with result := ran.result.map ({} : SweepSummary).absorb }

def Ran.answer (ran : Ran σ α) (answer : α → Answer) : Ran σ Answer := { ran with result := ran.result.map answer }

/-! ## Sessions in a world -/

open Awaiting (Wakes)

namespace Play

/-- The wait for a batch, one wait for whatever is ready after the other. -/
inductive Loops (deadline : Option Instant) : World W → Waiting → World W → Waited → Prop
  | turn (w mid last : World W) (s next : Waiting) (t : Instant) (out : Waited) :
      Wakes w s.now (s.others deadline) t .other mid → Select.Step none deadline { s with now := t } next →
      Loops deadline mid next last out → Loops deadline w s last out
  | stop (w last : World W) (s : Waiting) (t : Instant) (summary : BatchSummary) (said : List Event) :
      Wakes w s.now (s.others deadline) t .other last → Select.Stop none deadline { s with now := t } summary said →
      Loops deadline w s last (said, some (t, summary))
  | shutdown (w last : World W) (s : Waiting) (t : Instant) : Wakes w s.now (s.others deadline) t .flag last →
      Loops deadline w s last (s.said ++ [(Cut.shutdown.close s.left.length s.summary).1],
        some (t, (Cut.shutdown.close s.left.length s.summary).2))
  /-- No wait ever ends. -/
  | endless (w : World W) (s : Waiting) : (∀ t waker mid, ¬Wakes w s.now (s.others deadline) t waker mid) →
      Loops deadline w s w (s.said, none)

section Worlds

variable (h : Host σ) (pacing : Pacing)

inductive Batches (w : World W) (now : Instant) (place : σ) (commands : List Command) :
    World W → Ran σ BatchSummary → Prop
  | waits (last : World W) (out : Waited) : pacing.Holds now →
      Loops (pacing.deadline now) w (h.waiting now place commands) last out →
      Batches w now place commands last (h.waited now place commands out)
  | unheld : ¬pacing.Holds now → Batches w now place commands w
      ⟨(h.startAll now place commands).1, now, (h.startAll now place commands).2, .error .clockOverflow⟩

open ClientLaunch (closing)

/-- The points of a sweep, one batch after the other with a pause behind each. -/
inductive Sweeps (l : ClientLaunch) :
    World W → Instant → σ → SweepSummary → List ExperimentRun → World W → Ran σ SweepSummary → Prop
  | finish (w : World W) (now : Instant) (place : σ) (total : SweepSummary) :
      Sweeps l w now place total [] w ⟨place, now, [], .ok total⟩
  | halt (w last : World W) (now : Instant) (place : σ) (total : SweepSummary) (r : ExperimentRun)
      (points : List ExperimentRun) (ran : Ran σ BatchSummary) (halt : Halt) :
      Batches h pacing w now place (l.commandsFor r.target) last ran → ran.result = .error halt →
      Sweeps l w now place total (r :: points) last
        ⟨ran.place, ran.clock, .say (l.opening r) :: ran.acts, .error halt⟩
  | cut (w last : World W) (now : Instant) (place : σ) (total : SweepSummary) (r : ExperimentRun)
      (points : List ExperimentRun) (ran : Ran σ BatchSummary) (s : BatchSummary) :
      Batches h pacing w now place (l.commandsFor r.target) last ran → ran.result = .ok s → s.interrupted = true →
      Sweeps l w now place total (r :: points) last
        ⟨ran.place, ran.clock, .say (l.opening r) :: ran.acts ++ [.say (closing r s)], .ok (total.absorb s)⟩
  | skip (w mid last : World W) (now : Instant) (place : σ) (total : SweepSummary) (r : ExperimentRun)
      (points : List ExperimentRun) (ran : Ran σ BatchSummary) (s : BatchSummary) (clock : Instant) :
      Batches h pacing w now place (l.commandsFor r.target) mid ran → ran.result = .ok s → s.interrupted = false →
      Wakes mid ran.clock (pacing.Over ran.clock) clock .flag last →
      Sweeps l w now place total (r :: points) last
        ⟨ran.place, clock, .say (l.opening r) :: ran.acts ++ [.say (closing r s)] ++ [.say .trialsSkipped],
          .ok { total.absorb s with interrupted := true }⟩
  | next (w mid settled last : World W) (now : Instant) (place : σ) (total : SweepSummary) (r : ExperimentRun)
      (points : List ExperimentRun) (ran : Ran σ BatchSummary) (s : BatchSummary) (clock : Instant)
      (rest : Ran σ SweepSummary) :
      Batches h pacing w now place (l.commandsFor r.target) mid ran → ran.result = .ok s → s.interrupted = false →
      Wakes mid ran.clock (pacing.Over ran.clock) clock .other settled →
      Sweeps l settled clock ran.place (total.absorb s) points last rest →
      Sweeps l w now place total (r :: points) last
        { rest with acts := .say (l.opening r) :: ran.acts ++ [.say (closing r s)] ++ rest.acts }

inductive Performs (w : World W) (now : Instant) (place : σ) : Request → World W → Ran σ Answer → Prop
  | batch (commands : List Command) (last : World W) (ran : Ran σ BatchSummary) :
      Batches h pacing w now place commands last ran → Performs w now place (.batch commands) last (ran.answer .batch)
  | servers (l : ServerLaunch) (last : World W) (ran : Ran σ BatchSummary) :
      Batches h pacing w now place l.commands last ran → Performs w now place (.servers l) last
        ((ran.alone.conclude fun _ => []).answer .totals)
  | clients (l : ClientLaunch) (last : World W) (ran : Ran σ SweepSummary) :
      Sweeps h pacing l w now place {} l.runs last ran →
      Performs w now place (.clients l) last ((ran.conclude fun _ => []).answer .totals)

end Worlds

end Play

/-- A session of batches and launches with time passing between them, up to the first that does
    not return. -/
inductive Plays (h : Host σ) (pacing : Pacing) : World W → Instant → σ → List Request → List (Ran σ Answer) → Prop
  | nil (w : World W) (now : Instant) (place : σ) : Plays h pacing w now place [] []
  | advance (w : World W) (now : Instant) (place : σ) (length : Nat) (rest : List Request) (out : List (Ran σ Answer)) :
      Plays h pacing w (now + length) place rest out → Plays h pacing w now place (.advance length :: rest) out
  | halt (w last : World W) (now : Instant) (place : σ) (r : Request) (rest : List Request) (ran : Ran σ Answer)
      (halt : Halt) : Play.Performs h pacing w now place r last ran → ran.result = .error halt →
      Plays h pacing w now place (r :: rest) [ran]
  | next (w mid : World W) (now : Instant) (place : σ) (r : Request) (rest : List Request) (ran : Ran σ Answer)
      (answer : Answer) (out : List (Ran σ Answer)) : Play.Performs h pacing w now place r mid ran →
      ran.result = .ok answer → Plays h pacing mid ran.clock ran.place rest out →
      Plays h pacing w now place (r :: rest) (ran :: out)

/-! ## Worlds alike -/

/-- Two worlds that show the same from `now` on. -/
def World.Alike (raised : Option Instant) (now : Instant) (w w' : World W) : Prop :=
  w.Shows now raised ∧ w'.Shows now raised

variable {raised deadline : Option Instant} {now t : Instant} {w w' mid last : World W} {waker : Waker}
  {others : Instant → Prop} {h : Host σ} {pacing : Pacing} {place : σ}

namespace World

theorem Alike.symm (alike : Alike raised now w w') : Alike raised now w' w := ⟨alike.2, alike.1⟩

theorem Alike.wakes (alike : Alike raised now w w') (wakes : Wakes w now others t waker mid) :
    ∃ mid', Wakes w' now others t waker mid' ∧ Alike raised t mid mid' := by
  obtain ⟨first, shows⟩ := Awaiting.firstReady_of_wakes alike.1 wakes
  obtain ⟨mid', wakes', shows'⟩ := Awaiting.exists_wakes alike.2 first
  exact ⟨mid', wakes', shows, shows'⟩

end World

namespace Play

open World (Alike)

theorem Loops.alike {s : Waiting} {out : Waited} (alike : Alike raised s.now w w') (loops : Loops deadline w s last out) :
    ∃ last', Loops deadline w' s last' out ∧
      ∀ clock summary, out.2 = some (clock, summary) → Alike raised clock last last' := by
  induction loops generalizing w' with
  | turn w mid last s next t out wakes step _ ih =>
    obtain ⟨mid', wakes', alike'⟩ := alike.wakes wakes
    have ready := (Awaiting.firstReady_of_wakes alike.1 wakes).1.ready
    have hnow : next.now = t := step.now_of_ready ready
    obtain ⟨last', loops', after⟩ := ih (hnow ▸ alike')
    exact ⟨last', .turn _ _ _ _ _ _ _ wakes' step loops', after⟩
  | stop w last s t summary said wakes stop =>
    obtain ⟨last', wakes', alike'⟩ := alike.wakes wakes
    refine ⟨last', .stop _ _ _ _ _ _ wakes' stop, ?_⟩
    intro clock summary h
    cases h
    exact alike'
  | shutdown w last s t wakes =>
    obtain ⟨last', wakes', alike'⟩ := alike.wakes wakes
    refine ⟨last', .shutdown _ _ _ _ wakes', ?_⟩
    intro clock summary h
    cases h
    exact alike'
  | endless w s none =>
    -- what would end a wait in the other world would end it here
    refine ⟨w', .endless _ _ fun t waker mid' wakes' => ?_, nofun⟩
    obtain ⟨mid, wakes, -⟩ := alike.symm.wakes wakes'
    exact none t waker mid wakes

theorem Batches.alike {commands : List Command} {ran : Ran σ BatchSummary} (alike : Alike raised now w w')
    (batches : Batches h pacing w now place commands last ran) :
    ∃ last', Batches h pacing w' now place commands last' ran ∧
      ∀ s, ran.result = .ok s → Alike raised ran.clock last last' := by
  cases batches with
  | waits last out holds loops =>
    obtain ⟨last', loops', after⟩ := loops.alike alike
    refine ⟨last', .waits last' out holds loops', ?_⟩
    obtain ⟨said, _ | ⟨clock, summary⟩⟩ := out
    · exact nofun
    · exact fun _ _ => after clock summary rfl
  | unheld unheld => exact ⟨w', .unheld unheld, nofun⟩

theorem Sweeps.alike {l : ClientLaunch} {total : SweepSummary} {points : List ExperimentRun} {ran : Ran σ SweepSummary}
    (alike : Alike raised now w w') (sweeps : Sweeps h pacing l w now place total points last ran) :
    ∃ last', Sweeps h pacing l w' now place total points last' ran ∧
      ∀ s, ran.result = .ok s → Alike raised ran.clock last last' := by
  induction sweeps generalizing w' with
  | finish => exact ⟨w', .finish _ _ _ _, fun _ _ => alike⟩
  | halt w last now place total r points ran halt batches hb =>
    obtain ⟨last', batches', -⟩ := batches.alike alike
    exact ⟨last', .halt _ _ _ _ _ _ _ _ _ batches' hb, nofun⟩
  | cut w last now place total r points ran s batches hb hs =>
    obtain ⟨last', batches', after⟩ := batches.alike alike
    exact ⟨last', .cut _ _ _ _ _ _ _ _ _ batches' hb hs, fun _ _ => after s hb⟩
  | skip w mid last now place total r points ran s clock batches hb hs wakes =>
    obtain ⟨mid', batches', after⟩ := batches.alike alike
    obtain ⟨last', wakes', alike'⟩ := (after s hb).wakes wakes
    exact ⟨last', .skip _ _ _ _ _ _ _ _ _ _ _ batches' hb hs wakes', fun _ _ => alike'⟩
  | next w mid settled last now place total r points ran s clock rest batches hb hs wakes _ ih =>
    obtain ⟨mid', batches', after⟩ := batches.alike alike
    obtain ⟨settled', wakes', alike'⟩ := (after s hb).wakes wakes
    obtain ⟨last', sweeps', after'⟩ := ih alike'
    exact ⟨last', .next _ _ _ _ _ _ _ _ _ _ _ _ _ batches' hb hs wakes' sweeps', after'⟩

theorem Performs.alike {r : Request} {ran : Ran σ Answer} (alike : Alike raised now w w')
    (performs : Performs h pacing w now place r last ran) :
    ∃ last', Performs h pacing w' now place r last' ran ∧
      ∀ answer, ran.result = .ok answer → Alike raised ran.clock last last' := by
  cases performs with
  | batch commands _ ran batches =>
    obtain ⟨last', batches', after⟩ := batches.alike alike
    refine ⟨last', .batch _ _ _ batches', fun answer hr => ?_⟩
    obtain ⟨s, hs, -⟩ := map_eq_ok_iff.mp hr
    exact after s hs
  | servers l _ ran batches =>
    obtain ⟨last', batches', after⟩ := batches.alike alike
    refine ⟨last', .servers _ _ _ batches', fun answer hr => ?_⟩
    obtain ⟨-, clock, result, -⟩ := ran.alone.conclude_rest fun _ => []
    obtain ⟨total, hr, -⟩ := map_eq_ok_iff.mp hr
    obtain ⟨s, hs, -⟩ := map_eq_ok_iff.mp (result.symm.trans hr)
    show Alike raised (ran.alone.conclude fun _ => []).clock last last'
    rw [clock]
    exact after s hs
  | clients l _ ran sweeps =>
    obtain ⟨last', sweeps', after⟩ := sweeps.alike alike
    refine ⟨last', .clients _ _ _ sweeps', fun answer hr => ?_⟩
    obtain ⟨-, clock, result, -⟩ := ran.conclude_rest fun _ => []
    obtain ⟨total, hr, -⟩ := map_eq_ok_iff.mp hr
    show Alike raised (ran.conclude fun _ => []).clock last last'
    rw [clock]
    exact after total (result.symm.trans hr)

end Play

/-- Worlds that show the same have the same plays. -/
theorem Plays.alike {requests : List Request} {out : List (Ran σ Answer)} (alike : World.Alike raised now w w')
    (plays : Plays h pacing w now place requests out) : Plays h pacing w' now place requests out := by
  induction plays generalizing w' with
  | nil => exact .nil _ _ _
  | advance w now place length rest out _ ih =>
    have le : now ≤ now + length := Nat.le_add_right _ _
    exact .advance _ _ _ _ _ _ (ih ⟨alike.1.mono le, alike.2.mono le⟩)
  | halt w last now place r rest ran halt performs hr =>
    obtain ⟨last', performs', -⟩ := performs.alike alike
    exact .halt _ _ _ _ _ _ _ _ performs' hr
  | next w mid now place r rest ran answer out performs hr _ ih =>
    obtain ⟨mid', performs', after⟩ := performs.alike alike
    exact .next _ _ _ _ _ _ _ _ _ performs' hr (ih (after answer hr))

/-! ## The plays of a host -/

namespace Play

theorem Loops.wakes (deadline : Option Instant) (s : Waiting) (waker : Waker) (shows : w.Shows s.now raised)
    (le : s.now ≤ t) (quiet : ∀ u, s.now ≤ u → u < t → ¬Select.Ready raised deadline s.left u)
    (ready : waker.There (Due raised t) (s.others deadline t)) :
    ∃ mid, Wakes w s.now (s.others deadline) t waker mid ∧ mid.Shows t raised := by
  refine Awaiting.exists_wakes shows ⟨le, fun u hu lt => ?_, ready⟩
  have unready := quiet u hu lt
  rw [Select.ready_iff, not_or] at unready
  exact unready

theorem Loops.close (s : Waiting) {c : Cut} (shows : w.Shows s.now raised)
    (hc : Cut.first? raised deadline = some (t, c)) (nonempty : s.left ≠ [])
    (workers : ∀ v ∈ s.left, ∀ u ∈ v.endTime?, t ≤ u) :
    ∃ last, Loops deadline w s last (s.said ++ [(c.close s.left.length s.summary).1],
      some (max s.now t, (c.close s.left.length s.summary).2)) ∧ last.Shows (max s.now t) raised := by
  have due : Due (c.time? raised deadline) (max s.now t) := ⟨t, Cut.time?_of_first?_some hc, Nat.le_max_right _ _⟩
  have quiet : ∀ u, s.now ≤ u → u < max s.now t → ¬Select.Ready raised deadline s.left u :=
    fun u hu lt => Select.not_ready_of_lt nonempty workers (Cut.first?_le hc) (by lia)
  cases c with
  | shutdown =>
    obtain ⟨last, wakes, shows'⟩ := Loops.wakes deadline s .flag shows (Nat.le_max_left _ _) quiet due
    exact ⟨last, .shutdown _ _ _ _ wakes, shows'⟩
  | deadline =>
    obtain ⟨last, wakes, shows'⟩ := Loops.wakes deadline s .other shows (Nat.le_max_left _ _) quiet
      (.inr (.inr ⟨.deadline, due⟩))
    exact ⟨last, .stop _ _ _ _ _ _ wakes (.cut _ .deadline due), shows'⟩

theorem Loops.endless_of_uncut (s : Waiting) (shows : w.Shows s.now raised)
    (uncut : Cut.first? raised deadline = none) (nonempty : s.left ≠ []) (workers : ∀ v ∈ s.left, v.endTime? = none) :
    Loops deadline w s w (s.said, none) := by
  refine .endless _ _ fun t waker mid wakes => ?_
  have there : Select.Ready raised deadline s.left t := by
    have ready := (Awaiting.firstReady_of_wakes shows wakes).1.ready
    rw [Select.ready_iff]
    cases waker with
    | flag => exact .inr ready
    | other => exact .inl ready
  rcases there with empty | ⟨v, hv, u, hu, -⟩ | ⟨c, u, hu, -⟩
  · exact nonempty empty
  · rw [workers v hv] at hu
    cases hu
  · obtain ⟨_, _, hc⟩ := Cut.exists_first? c hu
    rw [uncut] at hc
    cases hc

/-- `wait` is a wait of the loop, also where it is endless. -/
theorem loops_of_wait {ws left : List Worker} {s : BatchSummary} {said : List Event}
    (shows : w.Shows now raised) (sorted : ws.Pairwise fun a b => a.before b = true) (perm : left.Perm ws)
    (ahead : ∀ v ∈ ws, ∀ u ∈ v.endTime?, now ≤ u) {events : List Event} {end? : Option (Instant × BatchSummary)}
    (hwait : wait (Cut.first? raised deadline) ws now s = (events, end?)) :
    ∃ last, Loops deadline w ⟨now, left, s, said⟩ last (said ++ events, end?) ∧
      ∀ clock summary, end? = some (clock, summary) → last.Shows clock raised := by
  induction ws generalizing left now s said events w with
  | nil =>
    obtain rfl := List.perm_nil.mp perm
    simp only [wait, Prod.mk.injEq] at hwait
    obtain ⟨rfl, rfl⟩ := hwait
    obtain ⟨last, wakes, shows'⟩ := Loops.wakes deadline ⟨now, [], s, said⟩ .other shows (Nat.le_refl now)
      (fun u le lt => (Nat.not_lt_of_le le lt).elim) (.inl rfl)
    refine ⟨last, ?_, ?_⟩
    · rw [List.append_nil]
      exact .stop _ _ _ _ _ _ wakes (.done _ rfl)
    · intro clock summary h
      cases h
      exact shows'
  | cons v rest ih =>
    have mem : v ∈ left := perm.mem_iff.mpr List.mem_cons_self
    have nonempty : left ≠ [] := List.ne_nil_of_mem mem
    rcases first_cases sorted perm with
      ⟨t, c, hc, before, workers⟩ | ⟨time, ending, hv, before, workers, cuts⟩ | ⟨hv, hc, workers⟩
    · rw [hc, wait_close before, ← List.length_cons (a := v), ← perm.length_eq] at hwait
      obtain ⟨rfl, rfl⟩ := Prod.mk.inj hwait
      obtain ⟨last, loops, shows'⟩ := Loops.close ⟨now, left, s, said⟩ shows hc nonempty workers
      refine ⟨last, loops, ?_⟩
      intro clock summary h
      cases h
      exact shows'
    · rw [wait_join hv before] at hwait
      obtain ⟨rfl, hlast⟩ := Prod.mk.inj hwait
      have hend := Worker.endTime?_of_ends hv
      obtain ⟨mid, wakes, shows'⟩ := Loops.wakes deadline ⟨now, left, s, said⟩ .other shows
        (ahead v List.mem_cons_self time hend) (fun u _ lt => Select.not_ready_of_lt nonempty workers cuts lt)
        (.inr (.inl ⟨v, mem, time, hend, Nat.le_refl _⟩))
      obtain ⟨last, loops, after⟩ := ih shows' (List.pairwise_cons.mp sorted).2 (.refl _)
        (fun v' hv' => workers v' (perm.mem_iff.mpr (List.mem_cons_of_mem _ hv'))) (Prod.ext rfl hlast)
      refine ⟨last, ?_, after⟩
      rw [← List.append_assoc]
      exact .turn _ _ _ _ _ _ _ wakes (.join _ v rest time ending perm hv (Nat.le_refl _)) loops
    · rw [hc, wait_endless hv] at hwait
      obtain ⟨rfl, rfl⟩ := Prod.mk.inj hwait
      refine ⟨w, ?_, fun _ _ h => by cases h⟩
      rw [List.append_nil]
      exact Loops.endless_of_uncut _ shows hc nonempty workers

end Play

theorem Host.flag_of_unasked (unasked : ∀ place, h.asked place = none) (raised : Option Instant) (place : σ) :
    h.flag raised place = raised := by
  rw [flag, unasked]
  cases raised <;> rfl

/-- What a host does for a batch is done in a world that shows the same. -/
theorem Play.Batches.of_batch (forward : h.Forward) (unasked : ∀ place, h.asked place = none)
    (shows : w.Shows now raised) (pacing : Pacing) (place : σ) (commands : List Command) :
    ∃ last, Batches h pacing w now place commands last (h.batch pacing raised now place commands) ∧
      ∀ s, (h.batch pacing raised now place commands).result = .ok s →
        last.Shows (h.batch pacing raised now place commands).clock raised := by
  have flag : h.batchRaised raised now place commands = raised := Host.flag_of_unasked unasked raised _
  have loops {events : List Event} {end? : Option (Instant × BatchSummary)}
      (hwait : h.batchWait pacing raised now place commands = (events, end?)) :
      ∃ last, Loops (pacing.deadline now) w (h.waiting now place commands) last (events, end?) ∧
        ∀ clock summary, end? = some (clock, summary) → last.Shows clock raised := by
    rw [Host.batchWait, flag] at hwait
    exact loops_of_wait shows (Worker.inEndOrder_pairwise _) (Worker.inEndOrder_perm _).symm
      (fun v hv => forward.ahead v ((Worker.inEndOrder_perm _).mem_iff.mp hv)) hwait
  rcases h.batch_cases pacing raised now place commands with
    ⟨events, clock, summary, holds, hwait, hb⟩ | ⟨events, hwait, hb⟩ | ⟨unheld, hb⟩ <;> rw [hb]
  · obtain ⟨last, loops, shows'⟩ := loops hwait
    exact ⟨last, .waits last _ holds loops, fun _ _ => shows' clock summary rfl⟩
  · -- a batch with a deadline is not waited for in vain
    have holds : pacing.Holds now := by
      intro length hl
      have comes : now + length ∈ Cut.deadline.time? raised (pacing.deadline now) :=
        Option.map_eq_some_iff.mpr ⟨length, hl, rfl⟩
      obtain ⟨t, c, hc⟩ := Cut.exists_first? .deadline comes
      rw [Host.batchWait, flag, hc] at hwait
      obtain ⟨_, _, _, ends⟩ := wait_ends (.inl ⟨_, rfl⟩)
      rw [ends] at hwait
      cases hwait
    obtain ⟨last, loops, -⟩ := loops hwait
    exact ⟨last, .waits last _ holds loops, fun _ h => by cases h⟩
  · refine ⟨w, .unheld fun holds => ?_, fun _ h => by cases h⟩
    obtain ⟨length, hl, le⟩ := unheld
    exact Nat.not_lt_of_le le (holds length hl)

def Waker.ofPause (cut : Bool) : Waker := if cut then .flag else .other

theorem Pacing.pause_wakes (shows : w.Shows now raised) :
    ∃ last, Wakes w now (pacing.Over now) (pacing.pause raised now).1 (.ofPause (pacing.pause raised now).2) last ∧
      last.Shows (pacing.pause raised now).1 raised := by
  have full : now ≤ Clock.pauseEnd now pacing.settle := Clock.le_pauseEnd now pacing.settle
  have whole (uncut : ∀ z ∈ raised, Clock.pauseEnd now pacing.settle < z) :
      FirstReady raised (pacing.Over now) now (Clock.pauseEnd now pacing.settle) .other := by
    refine ⟨full, fun v _ lt => ⟨Nat.not_le_of_lt lt, ?_⟩, Nat.le_refl _⟩
    intro due
    obtain ⟨z, hz, le⟩ := due
    have := uncut z hz
    lia
  refine Awaiting.exists_wakes shows ?_
  cases raised with
  | none => exact whole nofun
  | some z =>
    by_cases le : z ≤ Clock.pauseEnd now pacing.settle
    · simp only [Pacing.pause, if_pos le]
      refine ⟨Nat.le_max_left _ _, fun v hv lt => ?_, z, rfl, Nat.le_max_right _ _⟩
      have early : v < z := by lia
      refine ⟨Nat.not_le_of_lt (Nat.lt_of_lt_of_le early le), ?_⟩
      intro due
      exact Nat.not_le_of_lt early ((due_iff_of_mem rfl).mp due)
    · simp only [Pacing.pause, if_neg le]
      refine whole ?_
      intro u hu
      cases hu
      exact Nat.lt_of_not_le le

theorem Play.Sweeps.of_runFrom (forward : h.Forward) (unasked : ∀ place, h.asked place = none)
    (shows : w.Shows now raised) (l : ClientLaunch) {n k : Nat} (fits : k + n = l.runCount) (total : SweepSummary)
    {ran : Ran σ SweepSummary} (hran : l.runFrom h pacing raised n k now place total = ran) :
    ∃ last, Sweeps h pacing l w now place total (l.runs.drop k) last ran ∧
      ∀ s, ran.result = .ok s → last.Shows ran.clock raised := by
  induction n generalizing k now place total w ran with
  | zero =>
    subst hran
    have none_left : l.runs.drop k = [] := List.drop_eq_nil_of_le (by rw [l.length_runs]; omega)
    rw [none_left]
    exact ⟨w, .finish _ _ _ _, fun _ _ => shows⟩
  | succ n ih =>
    have pos : 0 < l.trials.toNat := by
      refine Nat.pos_of_ne_zero fun zero => ?_
      rw [ClientLaunch.runCount, zero, Nat.mul_zero] at fits
      omega
    obtain ⟨r, hr, hdrop⟩ := l.drop_runs pos fits
    rw [hdrop]
    obtain ⟨mid, batches, after⟩ := Batches.of_batch forward unasked shows pacing place (l.commandsFor r.target)
    have flag (place : σ) : earlier? raised (h.asked place) = raised := Host.flag_of_unasked unasked raised place
    rcases l.runFrom_cases h pacing raised hr n now place total with
      ⟨halt, hb, hrun⟩ | ⟨s, hb, hs, hrun⟩ | ⟨s, clock, hb, hs, hpause, hrun⟩ | ⟨s, clock, hb, hs, hpause, hrun⟩ <;>
      obtain rfl := hran.symm.trans hrun
    · exact ⟨mid, .halt _ _ _ _ _ _ _ _ _ batches hb, fun _ h => by cases h⟩
    · exact ⟨mid, .cut _ _ _ _ _ _ _ _ _ batches hb hs, fun _ _ => after s hb⟩
    · obtain ⟨last, wakes, shows'⟩ := Pacing.pause_wakes (after s hb)
      rw [flag] at hpause
      rw [hpause] at wakes shows'
      exact ⟨last, .skip _ _ _ _ _ _ _ _ _ _ _ batches hb hs wakes, fun _ _ => shows'⟩
    · obtain ⟨settled, wakes, shows'⟩ := Pacing.pause_wakes (after s hb)
      rw [flag] at hpause
      rw [hpause] at wakes shows'
      have fits' : k + 1 + n = l.runCount := by omega
      obtain ⟨last, sweeps, after'⟩ := ih shows' fits' (total.absorb s) rfl
      exact ⟨last, .next _ _ _ _ _ _ _ _ _ _ _ _ _ batches hb hs wakes sweeps, after'⟩

end Fleet

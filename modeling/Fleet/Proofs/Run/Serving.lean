/-
  Fleet.Proofs.Run.Serving — a session that serves requests one after the other: batches,
  launches, moves of the shutdown flag and pauses, in any order.

  Whatever is asked for, what a session does is a row of batches with time passing between
  them. `Bout` is one of them, with when and where it was started and what came of it;
  `Course` is such a row. `runFrom_course`: a sweep is one. `serveAll_course`: so is a
  session, as far as it comes. What is to be shown of all batches of a session is an
  induction on the course, and needs to know nothing about requests.
-/

import Fleet.Proofs.Run.Outcome
import Fleet.Proofs.Run.Pacing

namespace Fleet

variable {σ : Type}

/-! ## Bouts -/

/-- A batch of a longer run: when it was started, where, and what came of it. -/
structure Bout (σ : Type) where
  now : Instant
  place : σ
  commands : List Command
  ran : Ran σ BatchSummary

def Bout.workers (b : Bout σ) : List Worker := workersOf b.ran.acts

def Host.bout (h : Host σ) (pacing : Pacing) (raised : Option Instant) (now : Instant) (place : σ)
    (commands : List Command) : Bout σ :=
  ⟨now, place, commands, h.batch pacing raised now place commands⟩

theorem Host.workers_bout (h : Host σ) (pacing : Pacing) (raised : Option Instant) (now : Instant) (place : σ)
    (commands : List Command) :
    (h.bout pacing raised now place commands).workers = h.batchWorkers now place commands :=
  workersOf_batch now place commands

/-- The batches of a sweep from point `k` on, as `ClientLaunch.runFrom` runs them. -/
def ClientLaunch.boutsFrom (l : ClientLaunch) (h : Host σ) (pacing : Pacing) (raised : Option Instant) :
    (n k : Nat) → Instant → σ → List (Bout σ)
  | 0, _, _, _ => []
  | n + 1, k, now, place =>
    match l.runAt? k with
    | none => []
    | some r =>
      let b := h.bout pacing raised now place (l.commandsFor r.target)
      b :: match b.ran.result with
        | .error _ => []
        | .ok s =>
          if s.interrupted then []
          else match pacing.pause (earlier? raised (h.asked b.ran.place)) b.ran.clock with
            | (_, true) => []
            | (clock, false) => boutsFrom l h pacing raised n (k + 1) clock b.ran.place

/-! ## Courses -/

/-- Batches one after the other, from an instant and a place to others, with time passing in
    between. -/
inductive Course (h : Host σ) (pacing : Pacing) : Instant → σ → List (Bout σ) → Instant → σ → Prop
  | wait {now clock : Instant} {place : σ} : now ≤ clock → Course h pacing now place [] clock place
  | bout {now start clock : Instant} {place last : σ} {bouts : List (Bout σ)} (raised : Option Instant)
      (commands : List Command) : now ≤ start →
      Course h pacing (h.bout pacing raised start place commands).ran.clock
        (h.bout pacing raised start place commands).ran.place bouts clock last →
      Course h pacing now place (h.bout pacing raised start place commands :: bouts) clock last

namespace Course

variable {h : Host σ} {pacing : Pacing} {now mid clock : Instant} {place between last : σ} {bouts more : List (Bout σ)}

theorem back (le : clock ≤ now) (course : Course h pacing now place bouts mid last) :
    Course h pacing clock place bouts mid last := by
  cases course with
  | wait le' => exact .wait (Nat.le_trans le le')
  | bout raised commands le' rest => exact .bout raised commands (Nat.le_trans le le') rest

theorem append (first : Course h pacing now place bouts mid between)
    (second : Course h pacing mid between more clock last) : Course h pacing now place (bouts ++ more) clock last := by
  induction first with
  | wait le => exact second.back le
  | bout raised commands le _ ih => exact .bout raised commands le (ih second)

theorem one (h : Host σ) (pacing : Pacing) (raised : Option Instant) (now : Instant) (place : σ)
    (commands : List Command) :
    let ran := h.batch pacing raised now place commands
    Course h pacing now place [h.bout pacing raised now place commands] ran.clock ran.place :=
  .bout raised commands (Nat.le_refl _) (.wait (Nat.le_refl _))

theorem exists_raised (course : Course h pacing now place bouts clock last) :
    ∀ b ∈ bouts, ∃ raised, b = h.bout pacing raised b.now b.place b.commands := by
  induction course with
  | wait => exact nofun
  | bout raised commands _ _ ih => exact List.forall_mem_cons.mpr ⟨⟨raised, rfl⟩, ih⟩

end Course

/-! ## Batches -/

section Batch

variable {h : Host σ} {pacing : Pacing} {raised : Option Instant} {now : Instant} {place : σ} {commands : List Command}

/-- What a batch that returns has counted: some of its own workers, all of which have ended,
    and all of its workers unless it was cut short. -/
structure Bout.Counts (b : Bout σ) (counted left : List Worker) (summary : BatchSummary) : Prop where
  own : (counted ++ left).Perm b.workers
  ended : ∀ w ∈ counted, Due w.endTime? b.ran.clock
  summary : left = [] ∧ summary = tally b.workers.length counted ∨
    ∃ c : Cut, summary = (c.close left.length (tally b.workers.length counted)).2

theorem Host.bout_counts (forward : h.Forward) {summary : BatchSummary}
    (hok : (h.batch pacing raised now place commands).result = .ok summary) :
    now ≤ (h.batch pacing raised now place commands).clock ∧
      ∃ counted left, (h.bout pacing raised now place commands).Counts counted left summary := by
  obtain ⟨events, hwait⟩ := wait_of_batch hok
  obtain ⟨s, steps, hclock, stop⟩ := batchWait_returns forward.ahead hwait
  have begun : ({ launched := .ofNat commands.length } : BatchSummary) =
      tally (h.batchWorkers now place commands).length [] := by
    rw [h.length_batchWorkers]
    rfl
  rw [begun] at steps
  have inv := (Counted.init forward.ahead []).steps steps
  obtain ⟨joined, perm, ended, counted⟩ := inv.joined
  refine ⟨hclock ▸ inv.begun, joined, s.left, ?_, ?_, ?_⟩
  · rw [h.workers_bout]
    exact perm
  · intro w hw
    exact (ended w hw).mono (Nat.le_of_eq hclock)
  · rw [h.workers_bout]
    cases stop with
    | done hl => exact .inl ⟨hl, counted⟩
    | cut c _ => exact .inr ⟨c, by rw [counted]⟩

theorem Host.le_batch (forward : h.Forward) : now ≤ (h.batch pacing raised now place commands).clock := by
  cases hres : (h.batch pacing raised now place commands).result with
  | ok s => exact (h.bout_counts forward hres).1
  | error halt =>
    rcases h.batch_cases pacing raised now place commands with ⟨_, _, _, -, -, hb⟩ | ⟨_, -, hb⟩ | ⟨-, hb⟩
    · rw [hb] at hres
      cases hres
    · rw [hb]
    · rw [hb]

end Batch

theorem Course.le {h : Host σ} {pacing : Pacing} {now clock : Instant} {place last : σ} {bouts : List (Bout σ)}
    (forward : h.Forward) (course : Course h pacing now place bouts clock last) : now ≤ clock := by
  induction course with
  | wait le => exact le
  | bout raised commands le _ ih => exact Nat.le_trans le (Nat.le_trans (Host.le_batch forward) ih)

/-! ## Sweeps -/

theorem Pacing.le_pause (pacing : Pacing) (flag : Option Instant) (now : Instant) :
    now ≤ (pacing.pause flag now).1 := by
  have full := Clock.le_pauseEnd now pacing.settle
  unfold pause
  cases flag with
  | none => exact full
  | some z =>
    dsimp only
    split
    · exact Nat.le_max_left _ _
    · exact full

namespace ClientLaunch

variable (l : ClientLaunch) (h : Host σ) (pacing : Pacing) (raised : Option Instant)

theorem boutsFrom_cases {k : Nat} {r : ExperimentRun} (hr : l.runAt? k = some r) (n : Nat) (now : Instant) (place : σ)
    (total : SweepSummary) :
    let b := h.bout pacing raised now place (l.commandsFor r.target)
    let run := l.runFrom h pacing raised (n + 1) k now place total
    let bouts := l.boutsFrom h pacing raised (n + 1) k now place
    (bouts = [b] ∧ b.ran.clock ≤ run.clock ∧ run.place = b.ran.place ∧ workersOf run.acts = b.workers ∧
      ∀ last, run.result = .ok last →
        ∃ s cut, b.ran.result = .ok s ∧ last = { total.absorb s with interrupted := cut }) ∨
    ∃ s clock, b.ran.result = .ok s ∧ b.ran.clock ≤ clock ∧
      bouts = b :: l.boutsFrom h pacing raised n (k + 1) clock b.ran.place ∧
      let rest := l.runFrom h pacing raised n (k + 1) clock b.ran.place (total.absorb s)
      run.clock = rest.clock ∧ run.place = rest.place ∧ run.result = rest.result ∧
        workersOf run.acts = b.workers ++ workersOf rest.acts := by
  intro b run bouts
  have pause {clock : Instant} {cut : Bool}
      (hpause : pacing.pause (earlier? raised (h.asked b.ran.place)) b.ran.clock = (clock, cut)) :
      b.ran.clock ≤ clock := by
    have le := pacing.le_pause (earlier? raised (h.asked b.ran.place)) b.ran.clock
    rwa [hpause] at le
  rcases l.runFrom_cases h pacing raised hr n now place total with
    ⟨halt, hb, hrun⟩ | ⟨s, hb, hs, hrun⟩ | ⟨s, clock, hb, hs, hpause, hrun⟩ | ⟨s, clock, hb, hs, hpause, hrun⟩ <;>
    rw [show run = _ from hrun]
  · have bouts_eq : bouts = [b] := by
      simp only [bouts, boutsFrom, hr, Host.bout, hb]
      rfl
    exact .inl ⟨bouts_eq, Nat.le_refl _, rfl, rfl, nofun⟩
  · have bouts_eq : bouts = [b] := by
      simp only [bouts, boutsFrom, hr, Host.bout, hb, hs, if_true]
      rfl
    refine .inl ⟨bouts_eq, Nat.le_refl _, rfl, by simp [b, Bout.workers, Host.bout], ?_⟩
    rintro last ⟨⟩
    exact ⟨s, _, hb, rfl⟩
  · have bouts_eq : bouts = [b] := by
      simp only [bouts, boutsFrom, hr, Host.bout, hb, hs, hpause, Bool.false_eq_true, if_false]
      rfl
    refine .inl ⟨bouts_eq, pause hpause, rfl, by simp [b, Bout.workers, Host.bout], ?_⟩
    rintro last ⟨⟩
    exact ⟨s, _, hb, rfl⟩
  · have bouts_eq : bouts = b :: l.boutsFrom h pacing raised n (k + 1) clock b.ran.place := by
      simp only [bouts, boutsFrom, hr, Host.bout, hb, hs, hpause, Bool.false_eq_true, if_false]
      rfl
    refine .inr ⟨s, clock, hb, pause hpause, bouts_eq, rfl, rfl, rfl, ?_⟩
    simp [b, Bout.workers, Host.bout]

/-- A sweep is a course of batches. Its workers are theirs, and if it returns, each of them
    has and its totals are those of their summaries. -/
theorem runFrom_course (n k : Nat) (now : Instant) (place : σ) (total : SweepSummary) :
    let bouts := l.boutsFrom h pacing raised n k now place
    let run := l.runFrom h pacing raised n k now place total
    Course h pacing now place bouts run.clock run.place ∧ workersOf run.acts = bouts.flatMap Bout.workers ∧
      ∀ last, run.result = .ok last → ∃ (summaries : List BatchSummary) (cut : Bool),
        bouts.map (·.ran.result) = summaries.map .ok ∧
        last = { summaries.foldl SweepSummary.absorb total with interrupted := cut } := by
  induction n generalizing k now place total with
  | zero =>
    refine ⟨.wait (Nat.le_refl _), rfl, ?_⟩
    rintro last ⟨⟩
    exact ⟨[], _, rfl, rfl⟩
  | succ n ih =>
    intro bouts run
    cases hr : l.runAt? k with
    | none =>
      have hbouts : bouts = [] := by simp only [bouts, boutsFrom, hr]
      have hrun : run = ⟨place, now, [], .ok total⟩ := l.runFrom_end h pacing raised hr _ _ _ _
      rw [hbouts, hrun]
      refine ⟨.wait (Nat.le_refl _), rfl, ?_⟩
      rintro last ⟨⟩
      exact ⟨[], _, rfl, rfl⟩
    | some r =>
      rcases l.boutsFrom_cases h pacing raised hr n now place total with
        ⟨hbouts, le, hplace, workers, summary⟩ | ⟨s, clock, hb, le, hbouts, hclock, hplace, hresult, workers⟩
      · rw [show bouts = _ from hbouts, show run.place = _ from hplace, show workersOf run.acts = _ from workers]
        refine ⟨.bout raised _ (Nat.le_refl _) (.wait le), (List.flatMap_singleton _ _).symm, fun last hlast => ?_⟩
        obtain ⟨s, cut, hb, rfl⟩ := summary last hlast
        exact ⟨[s], cut, congrArg (fun result => [result]) hb, rfl⟩
      · obtain ⟨course, all, summaries⟩ := ih (k + 1) clock _ (total.absorb s)
        rw [show bouts = _ from hbouts, show run.clock = _ from hclock, show run.place = _ from hplace,
          show run.result = _ from hresult, show workersOf run.acts = _ from workers]
        refine ⟨.bout raised _ (Nat.le_refl _) (course.back le), ?_, fun last hlast => ?_⟩
        · rw [all, List.flatMap_cons]
        · obtain ⟨rest, cut, hrest, rfl⟩ := summaries last hlast
          exact ⟨s :: rest, cut, by rw [List.map_cons, hb, hrest, List.map_cons], rfl⟩

end ClientLaunch

/-! ## Sessions -/

inductive Request where
  | batch (commands : List Command)
  | servers (l : ServerLaunch)
  | clients (l : ClientLaunch)
  | move (isUp : Bool)
  | raiseIn (length : Nat)
  | release
  | advance (length : Nat)

inductive Answer where
  | batch (summary : BatchSummary)
  | totals (summary : SweepSummary)
  | done
  deriving DecidableEq, Repr

structure Served (σ : Type) where
  bouts : List (Bout σ)
  acts : List Act
  result : Except Halt Answer
  after : Session σ

namespace Session

variable (s : Session σ)

def quietly (after : Session σ) : Served σ := ⟨[], [], .ok .done, after⟩

def serve : Request → Served σ
  | .batch commands =>
    let ran := s.batch commands
    ⟨[s.host.bout s.pacing s.raised s.clock s.place commands], ran.acts, ran.result.map .batch, s.after ran⟩
  | .servers l =>
    let ran := s.servers l
    ⟨[s.host.bout s.pacing s.raised s.clock s.place l.commands], ran.acts, ran.result.map .totals, s.after ran⟩
  | .clients l =>
    let ran := s.clients l
    ⟨l.boutsFrom s.host s.pacing s.raised l.runCount 0 s.clock s.place, ran.acts, ran.result.map .totals, s.after ran⟩
  | .move isUp => quietly { s with switch := s.switch.set isUp }
  | .raiseIn length => quietly { s with switch := s.switch.raiseAt (s.clock + length) }
  | .release => quietly { s with switch := s.switch.release }
  | .advance length => quietly (s.advance length)

/-- Serve requests one after the other, up to the first that does not return. -/
def serveAll (s : Session σ) : List Request → List (Served σ)
  | [] => []
  | r :: rest =>
    let served := s.serve r
    served :: match served.result with
      | .ok _ => serveAll served.after rest
      | .error _ => []

def afterAll (s : Session σ) : List (Served σ) → Session σ
  | [] => s
  | served :: rest => afterAll served.after rest

end Session

def boutsOf (served : List (Served σ)) : List (Bout σ) := served.flatMap (·.bouts)

/-- An answer that is made of what these batches have come to, and of nothing else. -/
def Answer.Of (bouts : List (Bout σ)) : Answer → Prop
  | .batch s => ∃ b, bouts = [b] ∧ b.ran.result = .ok s
  | .totals total => ∃ (summaries : List BatchSummary) (cut : Bool),
      bouts.map (·.ran.result) = summaries.map .ok ∧
        total = { summaries.foldl SweepSummary.absorb {} with interrupted := cut }
  | .done => bouts = []

theorem Switch.raisedFrom_eq_none_iff {s : Switch} {now : Instant} :
    s.raisedFrom now = none ↔ s.isUp = false ∧ s.coming = [] := by
  unfold raisedFrom
  cases s.isUp <;> simp

theorem Switch.advance_of_unraised {s : Switch} {now : Instant} (unraised : s.raisedFrom now = none) (clock : Instant) :
    s.advance clock = s := by
  obtain ⟨isUp, held, coming⟩ := s
  obtain ⟨rfl, rfl⟩ := raisedFrom_eq_none_iff.mp unraised
  rfl

theorem map_eq_ok_iff {ε α β : Type} {f : α → β} {r : Except ε α} {b : β} :
    r.map f = .ok b ↔ ∃ a, r = .ok a ∧ f a = b := by
  cases r <;> simp [Except.map]

theorem Ran.conclude_rest (ran : Ran σ SweepSummary) (closing : SweepSummary → List Event) :
    (ran.conclude closing).place = ran.place ∧ (ran.conclude closing).clock = ran.clock ∧
      (ran.conclude closing).result = ran.result ∧ workersOf (ran.conclude closing).acts = workersOf ran.acts := by
  unfold conclude
  split
  · exact ⟨rfl, rfl, rfl, by rw [workersOf_append, workersOf_say, List.append_nil]⟩
  · exact ⟨rfl, rfl, rfl, rfl⟩

namespace Session

variable (s : Session σ)

theorem serve_batch {s : Session σ} {commands : List Command} {ran : Ran σ BatchSummary}
    (h : s.host.batch s.pacing s.raised s.clock s.place commands = ran) :
    s.serve (.batch commands) =
      ⟨[⟨s.clock, s.place, commands, ran⟩], ran.acts, ran.result.map .batch, s.after ran⟩ := by
  subst h
  rfl

theorem serve_after (r : Request) : (s.serve r).after.host = s.host ∧ (s.serve r).after.pacing = s.pacing := by
  cases r <;> exact ⟨rfl, rfl⟩

/-- What a session does for a request is a course of batches, and their workers are added to
    its own. -/
theorem serve_course (r : Request) :
    Course s.host s.pacing s.clock s.place (s.serve r).bouts (s.serve r).after.clock (s.serve r).after.place ∧
      (s.serve r).after.workers = s.workers ++ (s.serve r).bouts.flatMap Bout.workers := by
  have quiet {t : Session σ} (le : s.clock ≤ t.clock) (place : t.place = s.place) (workers : t.workers = s.workers) :
      Course s.host s.pacing s.clock s.place (quietly t).bouts t.clock t.place ∧
        t.workers = s.workers ++ (quietly t).bouts.flatMap Bout.workers := by
    rw [place, workers]
    exact ⟨.wait le, (List.append_nil _).symm⟩
  cases r with
  | batch commands =>
    refine ⟨.one s.host s.pacing s.raised s.clock s.place commands, ?_⟩
    rw [serve, List.flatMap_singleton]
    rfl
  | servers l =>
    obtain ⟨hplace, hclock, -, workers⟩ := (l.run s.host s.pacing s.raised s.clock s.place).conclude_rest fun _ => []
    refine ⟨?_, ?_⟩
    · show Course _ _ _ _ _ (s.servers l).clock (s.servers l).place
      rw [servers, hclock, hplace]
      exact .one s.host s.pacing s.raised s.clock s.place l.commands
    · show s.workers ++ workersOf (s.servers l).acts = _
      rw [servers, workers, serve, List.flatMap_singleton]
      rfl
  | clients l =>
    obtain ⟨hplace, hclock, -, workers⟩ := (l.run s.host s.pacing s.raised s.clock s.place).conclude_rest fun _ => []
    obtain ⟨course, all, -⟩ := l.runFrom_course s.host s.pacing s.raised l.runCount 0 s.clock s.place {}
    refine ⟨?_, ?_⟩
    · show Course _ _ _ _ _ (s.clients l).clock (s.clients l).place
      rw [clients, hclock, hplace]
      exact course
    · show s.workers ++ workersOf (s.clients l).acts = _
      rw [clients, workers, ClientLaunch.run, all]
      rfl
  | move isUp => exact quiet (Nat.le_refl _) rfl rfl
  | raiseIn length => exact quiet (Nat.le_refl _) rfl rfl
  | release => exact quiet (Nat.le_refl _) rfl rfl
  | advance length => exact quiet (Nat.le_add_right _ _) rfl rfl

theorem serveAll_course (requests : List Request) :
    let served := s.serveAll requests
    Course s.host s.pacing s.clock s.place (boutsOf served) (s.afterAll served).clock (s.afterAll served).place ∧
      (s.afterAll served).workers = s.workers ++ (boutsOf served).flatMap Bout.workers := by
  induction requests generalizing s with
  | nil => exact ⟨.wait (Nat.le_refl _), (List.append_nil _).symm⟩
  | cons r rest ih =>
    obtain ⟨course, workers⟩ := s.serve_course r
    obtain ⟨host, pacing⟩ := s.serve_after r
    simp only [serveAll, afterAll, boutsOf, List.flatMap_cons]
    cases (s.serve r).result with
    | error halt =>
      refine ⟨course.append (.wait (Nat.le_refl _)), ?_⟩
      show (s.serve r).after.workers = s.workers ++ ((s.serve r).bouts ++ []).flatMap Bout.workers
      rw [List.append_nil, workers]
    | ok answer =>
      obtain ⟨more, all⟩ := ih (s.serve r).after
      rw [host, pacing] at more
      refine ⟨course.append more, ?_⟩
      rw [all, workers, List.flatMap_append, List.append_assoc]
      rfl

/-- What a request answers is made of the summaries of its own batches. -/
theorem serve_answer (r : Request) : ∀ answer, (s.serve r).result = .ok answer → answer.Of (s.serve r).bouts := by
  intro answer h
  cases r with
  | batch commands =>
    simp only [serve] at h ⊢
    cases hres : (s.batch commands).result with
    | error halt => rw [hres] at h; cases h
    | ok summary =>
      rw [hres] at h
      cases h
      exact ⟨_, rfl, hres⟩
  | servers l =>
    simp only [serve, servers, ServerLaunch.run] at h ⊢
    cases hres : (s.host.batch s.pacing s.raised s.clock s.place l.commands).result with
    | error halt => rw [hres] at h; cases h
    | ok summary =>
      rw [hres] at h
      cases h
      exact ⟨[summary], _, congrArg (fun result => [result]) hres, rfl⟩
  | clients l =>
    obtain ⟨-, -, result, -⟩ := (l.run s.host s.pacing s.raised s.clock s.place).conclude_rest fun _ => []
    simp only [serve, clients, result] at h ⊢
    obtain ⟨-, -, summaries⟩ := l.runFrom_course s.host s.pacing s.raised l.runCount 0 s.clock s.place {}
    cases hres : (l.run s.host s.pacing s.raised s.clock s.place).result with
    | error halt => rw [hres] at h; cases h
    | ok total =>
      rw [hres] at h
      cases h
      exact summaries total hres
  | move isUp => cases h; rfl
  | raiseIn length => cases h; rfl
  | release => cases h; rfl
  | advance length => cases h; rfl

theorem serveAll_answers (requests : List Request) :
    ∀ served ∈ s.serveAll requests, ∀ answer, served.result = .ok answer → answer.Of served.bouts := by
  induction requests generalizing s with
  | nil => exact nofun
  | cons r rest ih =>
    refine List.forall_mem_cons.mpr ⟨s.serve_answer r, ?_⟩
    cases (s.serve r).result with
    | error halt => exact nofun
    | ok answer => exact ih (s.serve r).after

end Session

end Fleet

/-
  Fleet.Proofs.Run.Accounting — every worker of a batch is accounted for once.

  `AnyOrder` is the loop of a batch with nothing said about when anything comes: any worker
  that is left may be joined at any turn, however it ended, the clock may go anywhere, and a
  cut may come at any turn. So it allows every order of joins, of joins that fail, of the
  deadline and of the shutdown flag, every way to settle a tie, and a flag that goes up and
  down again.

  `Accounted` is what every turn keeps: who has been counted and who is left are together
  the workers that were launched. `batch_accounts_for_every_worker` says what that makes of
  a summary; the select loop (`Select.Returns`) and a batch itself are runs of `AnyOrder`.
-/

import Fleet.Proofs.Run.Batch
import Fleet.Proofs.Run.Tally
import Fleet.Run.Session

namespace Fleet

/-! ## Any order -/

namespace AnyOrder

inductive Turn : Waiting → Waiting → Prop
  | pass (s : Waiting) (t : Instant) : Turn s { s with now := t }
  | join (s : Waiting) (w : Worker) (rest : List Worker) (ending : Ending) : s.left.Perm (w :: rest) →
      Turn s ⟨s.now, rest, s.summary.record ending, s.said ++ w.farewell rest.length ending⟩

inductive Stop : Waiting → BatchSummary → List Event → Prop
  | done (s : Waiting) : s.left = [] → Stop s s.summary s.said
  | cut (s : Waiting) (c : Cut) :
      Stop s (c.close s.left.length s.summary).2 (s.said ++ [(c.close s.left.length s.summary).1])

/-- The loop can go from `s` to an end at `clock`, with a summary and what was said. -/
def Returns (s : Waiting) (clock : Instant) (summary : BatchSummary) (said : List Event) : Prop :=
  ∃ s', Relation.ReflTransGen Turn s s' ∧ s'.now = clock ∧ Stop s' summary said

theorem Returns.head {s s' : Waiting} {clock : Instant} {summary : BatchSummary} {said : List Event} (turn : Turn s s')
    (h : Returns s' clock summary said) : Returns s clock summary said := by
  obtain ⟨last, turns, hclock, stop⟩ := h
  exact ⟨last, turns.head turn, hclock, stop⟩

/-- The end of a loop does not depend on when it was reached. -/
theorem Returns.at {s : Waiting} {t clock : Instant} {summary : BatchSummary} {said : List Event}
    (h : Returns { s with now := t } clock summary said) : Returns s clock summary said := h.head (.pass s t)

/-! ## The orders that instants allow -/

variable {raised deadline : Option Instant}

theorem turn_of_step {s s' : Waiting} (step : Select.Step raised deadline s s') : Turn s s' := by
  cases step with
  | pass t _ _ _ => exact .pass s t
  | join w rest _ ending perm _ _ => exact .join s w rest ending perm

theorem stop_of_stop {s : Waiting} {summary : BatchSummary} {said : List Event}
    (stop : Select.Stop raised deadline s summary said) : Stop s summary said := by
  cases stop with
  | done hl => exact .done s hl
  | cut c _ => exact .cut s c

theorem returns_of_returns {s : Waiting} {clock : Instant} {summary : BatchSummary} {said : List Event}
    (h : Select.Returns raised deadline s clock summary said) : Returns s clock summary said := by
  obtain ⟨s', steps, hclock, stop⟩ := h
  exact ⟨s', Relation.ReflTransGen.mono (fun _ _ => turn_of_step) _ _ steps, hclock, stop_of_stop stop⟩

/-- A wait that comes to an end is a run of the loop, whatever the order of its workers. -/
theorem returns_of_wait {cut : Option (Instant × Cut)} {ws left : List Worker} {now clock : Instant}
    {s summary : BatchSummary} {said events : List Event} (perm : left.Perm ws)
    (h : wait cut ws now s = (events, some (clock, summary))) :
    Returns ⟨now, left, s, said⟩ clock summary (said ++ events) := by
  induction ws generalizing left now s said events with
  | nil =>
    cases h
    rw [List.append_nil]
    exact ⟨_, .refl, rfl, .done _ (List.perm_nil.mp perm)⟩
  | cons w rest ih =>
    rcases wait_cases cut w with ⟨t, c, rfl, before⟩ | ⟨time, ending, hw, before⟩ | ⟨hw, rfl⟩
    · rw [wait_close before, ← List.length_cons (a := w), ← perm.length_eq] at h
      cases h
      exact .at (t := max now t) ⟨_, .refl, rfl, .cut _ c⟩
    · rw [wait_join hw before] at h
      obtain ⟨rfl, hlast⟩ := Prod.mk.inj h
      rw [← List.append_assoc]
      refine .head (.join _ w rest ending perm) (.at (t := time) ?_)
      exact ih (.refl _) (Prod.ext rfl hlast)
    · rw [wait_endless hw] at h
      cases h

end AnyOrder

/-! ## Accounts -/

def BatchSummary.ended (s : BatchSummary) : Nat := s.succeeded.toNat + s.failed.toNat + s.startFailed.toNat

theorem BatchSummary.ended_record {s : BatchSummary} (ending : Ending) (fits : s.ended + 1 < UInt32.size) :
    (s.record ending).ended = s.ended + 1 := by
  have succ {x : UInt32} (le : x.toNat ≤ s.ended) : (x + 1).toNat = x.toNat + 1 := by
    have hx : x.toNat + 1 < 2 ^ 32 := Nat.lt_of_le_of_lt (Nat.succ_le_succ le) fits
    rw [UInt32.toNat_add, UInt32.toNat_one, Nat.mod_eq_of_lt hx]
  rw [record_eq]
  cases ending.verdict with
  | succeeded => simp only [ended, succ (x := s.succeeded) (by unfold ended; omega)]; omega
  | failed => simp only [ended, succ (x := s.failed) (by unfold ended; omega)]; omega
  | neverRan => simp only [ended, succ (x := s.startFailed) (by unfold ended; omega)]; omega

theorem BatchSummary.record_rest (s : BatchSummary) (ending : Ending) :
    (s.record ending).launched = s.launched ∧ (s.record ending).timedOut = s.timedOut := by
  unfold record
  split <;> exact ⟨rfl, rfl⟩

/-- At every turn of the loop of `n` workers, each of them has been counted or is left. -/
structure Accounted (n : Nat) (s : Waiting) : Prop where
  launched : s.summary.launched.toNat = n
  counted : s.summary.ended + s.left.length = n
  timedOut : s.summary.timedOut = 0
  uninterrupted : s.summary.interrupted = false

/-- A summary in which each of `n` workers is accounted for: unless the batch was interrupted
    it has ended or timed out. -/
structure BatchSummary.Accounts (n : Nat) (s : BatchSummary) : Prop where
  launched : s.launched.toNat = n
  whole : s.interrupted = false → s.ended + s.timedOut.toNat = s.launched.toNat
  cut : s.interrupted = true → s.timedOut = 0 ∧ s.ended ≤ s.launched.toNat

namespace Accounted

variable {n : Nat} {s s' : Waiting}

theorem init {now : Instant} {ws : List Worker} {said : List Event} (fits : n < UInt32.size) (length : ws.length = n) :
    Accounted n ⟨now, ws, { launched := .ofNat n }, said⟩ where
  launched := UInt32.toNat_ofNat_of_lt' fits
  counted := by simp [BatchSummary.ended, length]
  timedOut := rfl
  uninterrupted := rfl

theorem turn (fits : n < UInt32.size) (inv : Accounted n s) (turn : AnyOrder.Turn s s') : Accounted n s' := by
  cases turn with
  | pass t => exact ⟨inv.launched, inv.counted, inv.timedOut, inv.uninterrupted⟩
  | join w rest ending perm =>
    have length : s.left.length = rest.length + 1 := perm.length_eq
    have counted := inv.counted
    obtain ⟨hl, ht⟩ := s.summary.record_rest ending
    refine ⟨hl ▸ inv.launched, ?_, ht.trans inv.timedOut, ?_⟩
    · show (s.summary.record ending).ended + rest.length = n
      rw [BatchSummary.ended_record ending (by omega)]
      omega
    · exact (s.summary.record_interrupted ending).trans inv.uninterrupted

theorem turns (fits : n < UInt32.size) (inv : Accounted n s) (turns : Relation.ReflTransGen AnyOrder.Turn s s') :
    Accounted n s' := by
  induction turns with
  | refl => exact inv
  | tail _ turn ih => exact ih.turn fits turn

theorem stop (fits : n < UInt32.size) (inv : Accounted n s) {summary : BatchSummary} {said : List Event}
    (stop : AnyOrder.Stop s summary said) : summary.Accounts n := by
  have counted := inv.counted
  have launched := inv.launched
  cases stop with
  | done hl =>
    refine ⟨launched, fun _ => ?_, fun h => by simp [inv.uninterrupted] at h⟩
    rw [inv.timedOut, launched, ← counted, hl]
    rfl
  | cut c =>
    cases c with
    | shutdown =>
      refine ⟨launched, nofun, fun _ => ⟨inv.timedOut, ?_⟩⟩
      rw [Cut.close, launched]
      exact Nat.le.intro counted
    | deadline =>
      have left : (UInt32.ofNat s.left.length).toNat = s.left.length :=
        UInt32.toNat_ofNat_of_lt' (Nat.lt_of_le_of_lt (Nat.le.intro ((Nat.add_comm _ _).trans counted)) fits)
      refine ⟨launched, fun _ => ?_, fun h => ?_⟩
      · show s.summary.ended + (UInt32.ofNat s.left.length).toNat = s.summary.launched.toNat
        rw [left, launched, counted]
      · rw [Cut.close, inv.uninterrupted] at h
        cases h

end Accounted

/-! ## Batches -/

/-- At every turn of the loop of a batch, in whatever order it sees joins, failed joins, the
    deadline and the shutdown flag, the workers counted so far and those still awaited are
    together those launched; and wherever it stops, the summary accounts for all of them.
    The orders that instants allow are among these, with every way to settle a tie, and so
    is the order of a batch that returns. -/
theorem batch_accounts_for_every_worker {σ : Type} (h : Host σ) (pacing : Pacing) (raised : Option Instant)
    (now : Instant) (place : σ) (commands : List Command) (fits : commands.length < UInt32.size) :
    let begun : Waiting := ⟨now, h.batchWorkers now place commands, { launched := .ofNat commands.length }, []⟩
    let ran := h.batch pacing raised now place commands
    (∀ s, Relation.ReflTransGen AnyOrder.Turn begun s →
      s.summary.launched.toNat = commands.length ∧
        s.summary.succeeded.toNat + s.summary.failed.toNat + s.summary.startFailed.toNat + s.left.length =
          s.summary.launched.toNat) ∧
    (∀ clock summary said, AnyOrder.Returns begun clock summary said →
      summary.launched.toNat = commands.length ∧
      (summary.interrupted = false →
        summary.succeeded.toNat + summary.failed.toNat + summary.startFailed.toNat + summary.timedOut.toNat =
          summary.launched.toNat) ∧
      (summary.interrupted = true → summary.timedOut = 0 ∧
        summary.succeeded.toNat + summary.failed.toNat + summary.startFailed.toNat ≤ summary.launched.toNat)) ∧
    (∀ flag deadline clock summary said, Select.Returns flag deadline begun clock summary said →
      AnyOrder.Returns begun clock summary said) ∧
    ∀ summary, ran.result = .ok summary → ∃ said, AnyOrder.Returns begun ran.clock summary said := by
  intro begun ran
  have init : Accounted commands.length begun := .init fits (h.length_batchWorkers now place commands)
  refine ⟨fun s turns => ?_, fun clock summary said returns => ?_, fun _ _ _ _ _ => AnyOrder.returns_of_returns,
    fun summary hok => ?_⟩
  · have inv := init.turns fits turns
    exact ⟨inv.launched, inv.counted.trans inv.launched.symm⟩
  · obtain ⟨s, turns, -, stop⟩ := returns
    have accounts := (init.turns fits turns).stop fits stop
    exact ⟨accounts.launched, accounts.whole, accounts.cut⟩
  · obtain ⟨events, hwait⟩ := Host.wait_of_batch hok
    exact ⟨_, AnyOrder.returns_of_wait (Worker.inEndOrder_perm _).symm hwait⟩

/-- A worker that cannot be waited for, one that ends at the very deadline and one that
    hangs: whichever way the tie goes, all three are accounted for. -/
theorem batch_accounts_for_every_worker_tied :
    let h := Host.scripted [⟨5, some .lost⟩, ⟨10, some (.exited (some 0))⟩, ⟨0, none⟩]
    let commands : List Command :=
      [⟨.client, 0, "c", [], .inherit⟩, ⟨.client, 1, "c", [], .inherit⟩, ⟨.client, 2, "c", [], .inherit⟩]
    commands.length < UInt32.size ∧
      ∀ clock summary said, Select.Returns none (some 10)
        ⟨0, h.batchWorkers 0 0 commands, { launched := .ofNat commands.length }, []⟩ clock summary said →
        summary.interrupted = false →
        summary.succeeded.toNat + summary.failed.toNat + summary.startFailed.toNat + summary.timedOut.toNat = 3 := by
  intro h commands
  refine ⟨by decide, fun clock summary said returns quiet => ?_⟩
  obtain ⟨-, ends, among, -⟩ := batch_accounts_for_every_worker h { timeout := some 10 } none 0 0 commands (by decide)
  obtain ⟨launched, whole, -⟩ := ends clock summary said (among _ _ _ _ _ returns)
  exact (whole quiet).trans launched

end Fleet

/-
  Fleet.Proofs.Run.LostSender — the sender of the shutdown flag goes away.

  Requests that are about the flag only move the session's own switch. As long as none of them
  raises it, a session is heard to do what it does without them (`Session.heard_of_unraised`),
  and that is a play of every world whose sender does not raise the flag (`Session.plays`).

  A switch that is let go of with the flag up stays as it is (`Session.raised_of_left_up`). So
  does a world, and no time passes there in a wait (`Awaiting.returns_of_left_up`).
-/

import Fleet.Proofs.Run.Playing

namespace Fleet

variable {W : Watch} {σ α : Type}

/-! ## The switch -/

theorem due_min? {times : List Instant} {t : Instant} : Due times.min? t ↔ ∃ u ∈ times, u ≤ t := by
  constructor
  · intro due
    obtain ⟨u, hu, le⟩ := due
    exact ⟨u, (List.min?_eq_some_iff.mp hu).1, le⟩
  · intro some_due
    obtain ⟨u, hu, le⟩ := some_due
    obtain ⟨z, hz⟩ := Option.isSome_iff_exists.mp (List.isSome_min?_of_mem hu)
    exact ⟨z, hz, Nat.le_trans ((List.min?_eq_some_iff.mp hz).2 u hu) le⟩

namespace Switch

variable {s : Switch} {now later t : Instant}

theorem due_advance (le : now ≤ later) (ht : later ≤ t) :
    Due ((s.advance later).raisedFrom later) t ↔ Due (s.raisedFrom now) t := by
  have here : Due (some later) t := ⟨later, rfl, ht⟩
  unfold raisedFrom advance
  cases s.isUp with
  | true => exact iff_of_true here ⟨now, rfl, Nat.le_trans le ht⟩
  | false =>
    simp only [Bool.false_or, Bool.false_eq_true, if_false, due_min?]
    split
    · next some_due =>
      obtain ⟨u, hu, due⟩ := List.any_eq_true.mp some_due
      exact iff_of_true here ⟨u, hu, Nat.le_trans (of_decide_eq_true due) ht⟩
    · next undue =>
      rw [due_min?]
      have ahead : ∀ u ∈ s.coming, later < u := by
        intro u hu
        refine Nat.lt_of_not_le fun le => undue ?_
        exact List.any_eq_true.mpr ⟨u, hu, decide_eq_true le⟩
      rw [List.filter_eq_self.mpr fun u hu => decide_eq_true (ahead u hu)]

end Switch

/-! ## What is heard of a session -/

namespace Request

def isFlag : Request → Bool
  | .move _ | .raiseIn _ | .release => true
  | _ => false

def raises : Request → Bool
  | .move isUp => isUp
  | .raiseIn _ => true
  | _ => false

end Request

/-- The batch or the launch that was asked for: all that it did, its end and what it came to. -/
def Served.heard (served : Served σ) : Option (Ran σ Answer) :=
  match served.result with
  | .ok .done => none
  | result => some ⟨served.after.place, served.after.clock, served.acts, result⟩

namespace Session

variable (s : Session σ)

def heard (requests : List Request) : List (Ran σ Answer) := (s.serveAll requests).filterMap Served.heard

variable {s} {r : Request} {rest : List Request}

theorem heard_cons : s.heard (r :: rest) = (s.serve r).heard.toList ++
    match (s.serve r).result with
    | .ok _ => (s.serve r).after.heard rest
    | .error _ => [] := by
  simp only [heard, serveAll, List.filterMap_cons]
  cases (s.serve r).heard <;> cases (s.serve r).result <;> rfl

theorem heard_of_ran {bouts : List (Bout σ)} {ran : Ran σ α} {answer : α → Answer} (loud : ∀ x, answer x ≠ .done) :
    (Served.mk bouts ran.acts (ran.result.map answer) (s.after ran)).heard = some (ran.answer answer) := by
  unfold Served.heard Ran.answer
  cases ran.result with
  | error halt => rfl
  | ok x =>
    cases hx : answer x with
    | done => exact (loud x hx).elim
    | _ => simp [Except.map, hx, after]

/-! ## Its own switch -/

theorem serve_switch {switch : Switch} (same : switch.raisedFrom s.clock = s.raised) (flagless : r.isFlag = false) :
    ({ s with switch } : Session σ).serve r =
      { s.serve r with after := { (s.serve r).after with switch := switch.advance (s.serve r).after.clock } } := by
  have same : ({ s with switch } : Session σ).raised = s.raised := same
  cases r with
  | batch commands => simp [serve, batch, after, same]
  | servers l => simp [serve, servers, after, same]
  | clients l => simp [serve, clients, after, same]
  | advance length => simp [serve, quietly, advance]
  | _ => cases flagless

theorem raised_after (down : s.raised = none) (flagless : r.isFlag = false) : (s.serve r).after.raised = none := by
  have switch : (s.serve r).after.switch = s.switch.advance (s.serve r).after.clock := by
    cases r with
    | move | raiseIn | release => cases flagless
    | _ => rfl
  rw [Switch.advance_of_unraised down] at switch
  rw [raised, switch, Switch.raisedFrom_eq_none_iff]
  exact Switch.raisedFrom_eq_none_iff.mp down

/-- A session with the flag down is heard to do the same whatever is asked about its flag, as
    long as that does not raise it. -/
theorem heard_of_unraised (s : Session σ) (switch : Switch) (down : s.raised = none)
    (down' : switch.raisedFrom s.clock = none) (requests : List Request) (low : ∀ r ∈ requests, r.raises = false) :
    ({ s with switch } : Session σ).heard requests = s.heard (requests.filter (!·.isFlag)) := by
  induction requests generalizing s switch with
  | nil => rfl
  | cons r rest ih =>
    obtain ⟨first, low⟩ := List.forall_mem_cons.mp low
    cases flag : r.isFlag with
    | true =>
      obtain ⟨isDown, coming⟩ := Switch.raisedFrom_eq_none_iff.mp down'
      rw [List.filter_cons_of_neg (by simp [flag])]
      have quiet (switch' : Switch) (isDown' : switch'.isUp = false) (coming' : switch'.coming = []) :
          ({ s with switch := switch' } : Session σ).heard rest = s.heard (rest.filter (!·.isFlag)) :=
        ih s switch' down (Switch.raisedFrom_eq_none_iff.mpr ⟨isDown', coming'⟩) low
      cases r with
      | move isUp =>
        obtain rfl : isUp = false := first
        rw [heard_cons]
        refine quiet (switch.set false) ?_ ?_ <;> unfold Switch.set <;> split <;> simp_all
      | raiseIn length => cases first
      | release =>
        rw [heard_cons]
        exact quiet switch.release isDown coming
      | _ => cases flag
    | false =>
      rw [List.filter_cons_of_pos (by simp [flag])]
      have downAfter := raised_after down flag
      have later : (switch.advance (s.serve r).after.clock).raisedFrom (s.serve r).after.clock = none := by
        rw [Switch.advance_of_unraised down', Switch.raisedFrom_eq_none_iff]
        exact Switch.raisedFrom_eq_none_iff.mp down'
      have more := ih (s.serve r).after _ downAfter later low
      have hserve := serve_switch (down'.trans down.symm) flag
      rw [heard_cons, heard_cons, hserve]
      refine congrArg _ ?_
      cases (s.serve r).result with
      | error halt => rfl
      | ok answer => exact more

theorem raised_of_left_up (s : Session σ) (up : s.switch.isUp = true) (gone : s.switch.held = false)
    (requests : List Request) :
    let last := s.afterAll (s.serveAll requests)
    last.raised = some last.clock := by
  induction requests generalizing s with
  | nil => simp [serveAll, afterAll, raised, Switch.raisedFrom, up]
  | cons r rest ih =>
    have kept : (s.serve r).after.switch.isUp = true ∧ (s.serve r).after.switch.held = false := by
      cases r <;>
        simp [serve, quietly, after, advance, Switch.advance, Switch.set, Switch.raiseAt, Switch.release, up, gone]
    simp only [serveAll, afterAll]
    cases (s.serve r).result with
    | error halt => simp [afterAll, raised, Switch.raisedFrom, kept.1]
    | ok answer => exact ih _ kept.1 kept.2

/-! ## Its plays -/

/-- What is heard of a session is a play of every world that shows what its switch does. -/
theorem plays (s : Session σ) (forward : s.host.Forward) (unasked : ∀ place, s.host.asked place = none) {w : World W}
    (shows : w.Shows s.clock s.raised) (requests : List Request) (flagless : ∀ r ∈ requests, r.isFlag = false) :
    Plays s.host s.pacing w s.clock s.place requests (s.heard requests) := by
  induction requests generalizing s w with
  | nil => exact .nil _ _ _
  | cons r rest ih =>
    obtain ⟨first, others⟩ := List.forall_mem_cons.mp flagless
    have le : s.clock ≤ (s.serve r).after.clock := (s.serve_course r).1.le forward
    -- what is left to show once something has been run for the request
    have heard {β : Type} {bouts : List (Bout σ)} {ran : Ran σ β} {answer : β → Answer} {mid : World W}
        (loud : ∀ x, answer x ≠ .done) (hserve : s.serve r = ⟨bouts, ran.acts, ran.result.map answer, s.after ran⟩)
        (performs : Play.Performs s.host s.pacing w s.clock s.place r mid (ran.answer answer))
        (after : ∀ x, ran.result = .ok x → mid.Shows ran.clock s.raised) :
        Plays s.host s.pacing w s.clock s.place (r :: rest) (s.heard (r :: rest)) := by
      rw [hserve] at le
      rw [heard_cons, hserve, heard_of_ran loud]
      cases hr : ran.result with
      | error halt => exact .halt _ _ _ _ _ _ _ _ performs (congrArg (Except.map answer) hr)
      | ok x =>
        have shows' : mid.Shows (s.after ran).clock (s.after ran).raised :=
          (after x hr).congr fun t ht => (Switch.due_advance le ht).symm
        exact .next _ _ _ _ _ _ _ _ _ performs (congrArg (Except.map answer) hr)
          (ih (s.after ran) forward unasked shows' others)
    cases r with
    | batch commands =>
      obtain ⟨mid, batches, after⟩ := Play.Batches.of_batch forward unasked shows s.pacing s.place commands
      exact heard nofun rfl (.batch _ _ _ batches) after
    | servers l =>
      obtain ⟨mid, batches, after⟩ := Play.Batches.of_batch forward unasked shows s.pacing s.place l.commands
      refine heard nofun rfl (.servers _ _ _ batches) fun total htotal => ?_
      obtain ⟨-, clock, result, -⟩ := (l.run s.host s.pacing s.raised s.clock s.place).conclude_rest fun _ => []
      obtain ⟨summary, hb, -⟩ := map_eq_ok_iff.mp (result.symm.trans htotal)
      rw [servers, clock]
      exact after summary hb
    | clients l =>
      obtain ⟨mid, sweeps, after⟩ := Play.Sweeps.of_runFrom forward unasked shows l (Nat.zero_add l.runCount) {} rfl
      refine heard nofun rfl (.clients _ _ _ sweeps) fun total htotal => ?_
      obtain ⟨-, clock, result, -⟩ := (l.run s.host s.pacing s.raised s.clock s.place).conclude_rest fun _ => []
      rw [clients, clock]
      exact after total (result.symm.trans htotal)
    | advance length =>
      have shows' : w.Shows (s.advance length).clock (s.advance length).raised :=
        (shows.mono le).congr fun t ht => (Switch.due_advance le ht).symm
      exact .advance _ _ _ _ _ _ (ih (s.advance length) forward unasked shows' others)
    | _ => cases first

end Session

/-! ## A flag that was left up -/

namespace Awaiting

variable {others : Instant → Prop} {now : Instant} {w : World W} {a : Awaiting W}

theorem leftUp_of_steps (left : w.LeftUp) (steps : Steps others (begin now w) a) : a.world.LeftUp := by
  induction steps with
  | refl => exact left
  | tail _ step ih =>
    cases step with
    | move time m rest hscript =>
      have held := World.held_of_script hscript
      rw [ih.gone] at held
      cases held
    | _ => exact ih

/-- A wait that begins with the flag left up is over at once, if nothing else is sooner: no time
    passes, and whatever has been done so far it can still return. -/
theorem returns_of_left_up (left : w.LeftUp) (steps : Steps others (begin now w) a) :
    a.now = now ∧ a.world.LeftUp ∧ ∃ b, Steps others a b ∧ b.now = now ∧ b.waiter.phase = .returned := by
  have inv : OnWatch (some now) others now a := (onWatch_begin (left.shows now)).steps steps
  have due : Due (some now) now := ⟨now, rfl, Nat.le_refl _⟩
  have first : FirstReady (some now) others now now .flag :=
    ⟨Nat.le_refl _, fun v le lt => (Nat.not_lt_of_le le lt).elim, due⟩
  have stands : a.now ≤ now := Nat.le_of_not_lt fun lt => (inv.quiet now (Nat.le_refl _) lt).2 due
  exact ⟨Nat.le_antisymm stands inv.begun, leftUp_of_steps left steps, inv.wakes first⟩

end Awaiting

/-! ## Losing the sender -/

/-- Whatever channel it is that carries the flag, nothing is lost with its sender.

    Whoever waits with a receiver of their own, whatever that has seen, heeds the flag through
    every history of sends and a drop at the end.

    A session that does not raise its flag is heard to do the same whatever else it is asked
    about the flag, letting go of it included. That is a play of every world whose sender does
    not raise the flag, and all such worlds have the same plays, whether their sender stays or
    goes and at what moment, while a batch is waited for, in a pause or before.

    A sender that goes with the flag up leaves it up: in every wait from then on no time passes
    before it is seen, which it still can be whatever has been done so far, and what a session's own
    switch says is that the flag is up. -/
theorem nothing_lost_with_sender (W : Watch) :
    (∀ (v : W.View) (ms : List Move) (x : Waiter W), Waiter.Runs ms (.fresh v) x → Waiter.Heeds v ms x) ∧
    (∀ {σ : Type} (s : Session σ) (requests : List Request), s.host.Forward → (∀ place, s.host.asked place = none) →
      s.raised = none → (∀ r ∈ requests, r.raises = false) →
      let asked := requests.filter (!·.isFlag)
      s.heard requests = s.heard asked ∧ ∀ w : World W, w.NeverRaised →
        Plays s.host s.pacing w s.clock s.place asked (s.heard asked) ∧
        ∀ w' : World W, w'.NeverRaised → ∀ out, Plays s.host s.pacing w s.clock s.place asked out ↔
          Plays s.host s.pacing w' s.clock s.place asked out) ∧
    (∀ w : World W, w.LeftUp → ∀ now others a, Awaiting.Steps others (.begin now w) a →
      a.now = now ∧ a.world.LeftUp ∧ ∃ b, Awaiting.Steps others a b ∧ b.now = now ∧ b.waiter.phase = .returned) ∧
    ∀ {σ : Type} (s : Session σ), s.switch.isUp = true → s.switch.held = false → ∀ requests,
      let last := s.afterAll (s.serveAll requests)
      last.raised = some last.clock := by
  refine ⟨fun v ms x run => Waiter.heeds run, fun s requests forward unasked down low => ?_,
    fun w left now others a steps => Awaiting.returns_of_left_up left steps,
    fun s up gone requests => s.raised_of_left_up up gone requests⟩
  have flagless : ∀ r ∈ requests.filter (!·.isFlag), r.isFlag = false := by
    intro r hr
    simpa using (List.mem_filter.mp hr).2
  have shows {w : World W} (never : w.NeverRaised) : w.Shows s.clock none := never.shows s.clock
  refine ⟨s.heard_of_unraised s.switch down down requests low, fun w never => ⟨?_, fun w' never' out => ⟨?_, ?_⟩⟩⟩
  · exact s.plays forward unasked (down ▸ shows never) _ flagless
  · exact Plays.alike ⟨shows never, shows never'⟩
  · exact Plays.alike ⟨shows never', shows never⟩

/-- A channel that numbers its values, and two clients one of which fails while the other is
    given up at the timeout. The sender lowers the flag once more during the first batch and is
    gone before the timeout, or it stays and does nothing, or it was gone with the flag up before
    the wait. -/
theorem nothing_lost_with_sender_mid_batch :
    ∃ l, (ClientLaunch.build ⟨2, 2, 1, 1, by decide, by decide, by decide, by decide⟩ 0
        ⟨"client", "::1", 8000, 2, default, none, 1, 10, ".", "s"⟩ [7, 9] 2).result = .ok l ∧
      let s : Session Nat := ⟨Host.scripted [⟨0, some (.exited (some 1))⟩, ⟨400, some (.exited (some 0))⟩],
        { settle := 10, timeout := some 25 }, 0, 5, {}, []⟩
      let requests := [.batch (l.commandsFor 7), .release, .clients l, .move false, .advance 7, .batch (l.commandsFor 9)]
      let asked := [.batch (l.commandsFor 7), .clients l, .advance 7, .batch (l.commandsFor 9)]
      let gone : World Watch.counting := ⟨⟨1, 0, false, false, by decide⟩, [(8, .send false), (12, .drop)]⟩
      let kept : World Watch.counting := ⟨⟨0, 0, false, false, by decide⟩, []⟩
      let left : World Watch.counting := ⟨⟨4, 2, true, true, by decide⟩, []⟩
      (∃ x, Waiter.Runs [.send true, .drop] (.fresh kept.view) x ∧ x.phase = .returned ∧
        Waiter.Heeds kept.view [.send true, .drop] x) ∧
      s.heard requests = s.heard asked ∧ Plays s.host s.pacing gone 5 0 asked (s.heard requests) ∧
      (∀ out, Plays s.host s.pacing gone 5 0 asked out ↔ Plays s.host s.pacing kept 5 0 asked out) ∧
      (∃ b, Awaiting.Steps (fun t => 60 ≤ t) (.begin 50 left) b ∧ b.now = 50 ∧ b.waiter.phase = .returned) ∧
      let up : Session Nat := { s with switch := { isUp := true, held := false } }
      (up.afterAll (up.serveAll requests)).raised = some (up.afterAll (up.serveAll requests)).clock := by
  obtain ⟨l, built⟩ : ∃ l, (ClientLaunch.build ⟨2, 2, 1, 1, by decide, by decide, by decide, by decide⟩ 0
      ⟨"client", "::1", 8000, 2, default, none, 1, 10, ".", "s"⟩ [7, 9] 2).result = .ok l := ⟨_, rfl⟩
  refine ⟨l, built, ?_⟩
  intro s requests asked gone kept left
  obtain ⟨waiters, sessions, waits, switches⟩ := nothing_lost_with_sender Watch.counting
  -- it has read that the flag is down, and reads that it is up when the sender is gone already
  have run : Waiter.Runs [.send true, .drop] (.fresh kept.view) ⟨_, .returned, [false, true]⟩ :=
    .own (.look _ _) (.move _ rfl (.move _ rfl (.own (.hear _ _ rfl) (.own (.look _ _) (.rest _)))))
  have goneNever : gone.NeverRaised := ⟨rfl, by decide, by decide⟩
  have keptNever : kept.NeverRaised := ⟨rfl, nofun, .nil⟩
  obtain ⟨same, plays⟩ := sessions s requests (Host.scripted_forward _) (fun _ => rfl) rfl
    (by simp [requests, Request.raises])
  obtain ⟨play, alike⟩ := plays gone goneNever
  obtain ⟨-, -, returns⟩ := waits left ⟨rfl, rfl⟩ 50 (fun t => 60 ≤ t) _ .refl
  refine ⟨⟨_, run, rfl, waiters _ _ _ run⟩, same, ?_, alike kept keptNever, returns, switches _ rfl rfl requests⟩
  rw [same]
  exact play

end Fleet

/-
  Fleet.Proofs.Run.Awaiting — waiting over time for the shutdown flag or for something else,
  whichever comes first.

  Time passes while whoever waits is blocked, nothing else is ready and the sender does not
  move, and never past the next of the sender's moves (`Awaiting.Step`). What ends a wait can be
  said without a channel: it ends at the first instant at which the flag is up or something
  else is ready, by whichever of the two that is (`FirstReady`). `Awaiting.firstReady_of_wakes` and
  `Awaiting.exists_wakes` say so, for a sender that never lowers a flag that it has
  raised. All they need to know of the channel is from when on the flag is up
  (`World.Shows`): a sender that goes away with the flag down and one that stays and never
  raises it are the same, and so are two that leave it up.
-/

import Fleet.Proofs.Run.Receiver
import Fleet.Proofs.Run.Select

namespace Fleet

variable {W : Watch}

/-! ## Senders -/

/-- A channel, and the moves that its sender is about to make, in order, each at its time. -/
structure World (W : Watch) where
  view : W.View
  coming : List (Instant × Move)

namespace World

/-- What is still to come: nothing, once the sender is gone. -/
def script (w : World W) : List (Instant × Move) := if W.closed w.view then [] else w.coming

def moved (w : World W) (m : Move) (rest : List (Instant × Move)) : World W := ⟨W.move m w.view, rest⟩

/-- From when on some moves have a flag up that is down. -/
def upFrom? : List (Instant × Move) → Option Instant
  | (time, .send true) :: _ => some time
  | (_, .send false) :: rest => upFrom? rest
  | (_, .drop) :: _ => none
  | [] => none

def Steady : Bool → List (Instant × Move) → Prop
  | isUp, (_, .send next) :: rest => (isUp = true → next = true) ∧ Steady next rest
  | _, (_, .drop) :: _ => True
  | _, [] => True

/-- From `now` on the flag is up from `raised` on, and never lowered. -/
structure Shows (w : World W) (now : Instant) (raised : Option Instant) : Prop where
  up : W.value w.view = true → Due raised now
  down : W.value w.view = false → ∀ t, now ≤ t → (Due (upFrom? w.script) t ↔ Due raised t)
  steady : Steady (W.value w.view) w.script
  ordered : w.script.Pairwise fun a b => a.1 ≤ b.1

variable {w : World W} {now later time : Instant} {raised : Option Instant} {m : Move} {rest : List (Instant × Move)}

theorem Shows.mono (shows : w.Shows now raised) (le : now ≤ later) : w.Shows later raised where
  up := fun h => (shows.up h).mono le
  down := fun h t later => shows.down h t (Nat.le_trans le later)
  steady := shows.steady
  ordered := shows.ordered

theorem Shows.congr (shows : w.Shows now raised) {raised' : Option Instant}
    (same : ∀ t, now ≤ t → (Due raised t ↔ Due raised' t)) : w.Shows now raised' where
  up := fun h => (same now (Nat.le_refl _)).mp (shows.up h)
  down := fun h t le => (shows.down h t le).trans (same t le)
  steady := shows.steady
  ordered := shows.ordered

theorem held_of_script (hscript : w.script = (time, m) :: rest) : W.closed w.view = false := by
  rw [script] at hscript
  cases h : W.closed w.view with
  | true =>
    rw [h] at hscript
    cases hscript
  | false => rfl

theorem script_moved (held : W.closed w.view = false) (m : Move) (rest : List (Instant × Move)) :
    (w.moved m rest).script = match m with | .send _ => rest | .drop => [] := by
  cases m with
  | send isUp => simp [script, moved, Watch.move, held]
  | drop => simp [script, moved, Watch.move]

theorem length_script_moved (hscript : w.script = (time, m) :: rest) :
    (w.moved m rest).script.length < w.script.length := by
  rw [script_moved (held_of_script hscript), hscript]
  cases m with
  | send isUp => exact Nat.lt_succ_self _
  | drop => exact Nat.succ_pos _

theorem Shows.moved (shows : w.Shows now raised) (hscript : w.script = (time, m) :: rest) (le : time ≤ now) :
    (w.moved m rest).Shows now raised := by
  obtain ⟨up, down, steady, ordered⟩ := shows
  have hrest := script_moved (held_of_script hscript) m rest
  rw [hscript] at down steady ordered
  have value : W.value (w.moved m rest).view = m.after (W.value w.view) := W.value_move m w.view
  cases m with
  | send isUp =>
    obtain ⟨kept, steady⟩ := steady
    refine ⟨fun h => ?_, fun h => ?_, ?_, ?_⟩
    · rw [value] at h
      obtain rfl : isUp = true := h
      cases hv : W.value w.view with
      | true => exact up hv
      | false => exact (down hv now (Nat.le_refl _)).mp ⟨time, rfl, le⟩
    · rw [value] at h
      obtain rfl : isUp = false := h
      have low : W.value w.view = false := by
        cases hv : W.value w.view with
        | true => exact (nomatch kept hv)
        | false => rfl
      rw [hrest]
      exact down low
    · rw [value, hrest]
      exact steady
    · rw [hrest]
      exact (List.pairwise_cons.mp ordered).2
  | drop =>
    refine ⟨fun h => ?_, fun h => ?_, ?_, ?_⟩
    · rw [value] at h
      exact up h
    · rw [value] at h
      rw [hrest]
      exact down h
    · rw [hrest]
      trivial
    · rw [hrest]
      exact .nil

theorem le_of_upFrom? {moves : List (Instant × Move)} {u z : Instant} (ordered : moves.Pairwise fun a b => a.1 ≤ b.1)
    (first : ∀ next ∈ moves.head?, u ≤ next.1) (h : upFrom? moves = some z) : u ≤ z := by
  induction moves with
  | nil => cases h
  | cons next rest ih =>
    obtain ⟨time, m⟩ := next
    obtain ⟨before, sorted⟩ := List.pairwise_cons.mp ordered
    have le : u ≤ time := first _ rfl
    match m with
    | .send true =>
      obtain rfl : time = z := Option.some.inj h
      exact le
    | .send false =>
      refine ih sorted (fun next hnext => ?_) h
      exact Nat.le_trans le (before next (List.mem_of_head? hnext))
    | .drop => cases h

/-- The flag is down and the sender, whether it goes away or not, does not raise it. -/
structure NeverRaised (w : World W) : Prop where
  low : W.value w.view = false
  unsent : ∀ next ∈ w.coming, next.2 ≠ .send true
  ordered : w.coming.Pairwise fun a b => a.1 ≤ b.1

structure LeftUp (w : World W) : Prop where
  up : W.value w.view = true
  gone : W.closed w.view = true

theorem upFrom?_of_unsent {moves : List (Instant × Move)} (unsent : ∀ next ∈ moves, next.2 ≠ .send true) :
    upFrom? moves = none ∧ Steady false moves := by
  induction moves with
  | nil => exact ⟨rfl, trivial⟩
  | cons next rest ih =>
    obtain ⟨first, unsent⟩ := List.forall_mem_cons.mp unsent
    obtain ⟨down, steady⟩ := ih unsent
    match next with
    | (_, .send true) => exact (first rfl).elim
    | (_, .send false) => exact ⟨down, nofun, steady⟩
    | (_, .drop) => exact ⟨rfl, trivial⟩

theorem NeverRaised.shows (never : w.NeverRaised) (now : Instant) : w.Shows now none := by
  have low := never.low
  have sub : w.script.Sublist w.coming := by
    unfold script
    split
    · exact List.nil_sublist _
    · exact List.Sublist.refl _
  obtain ⟨down, steady⟩ := upFrom?_of_unsent fun next h => never.unsent next (sub.subset h)
  refine ⟨fun up => ?_, fun _ t _ => ?_, ?_, never.ordered.sublist sub⟩
  · rw [low] at up
    cases up
  · rw [down]
  · rw [low]
    exact steady

theorem LeftUp.shows (left : w.LeftUp) (now : Instant) : w.Shows now (some now) := by
  have hscript : w.script = [] := by simp [script, left.gone]
  refine ⟨fun _ => ⟨now, rfl, Nat.le_refl _⟩, fun low => ?_, ?_, ?_⟩
  · rw [left.up] at low
    cases low
  · rw [hscript]
    trivial
  · rw [hscript]
    exact .nil

end World

/-! ## The first that is ready -/

inductive Waker where
  | flag
  | other
  deriving DecidableEq, Repr

def Waker.There (flag other : Prop) : Waker → Prop
  | .flag => flag
  | .other => other

/-- `t` is the first instant from `now` on at which the flag is up or something else is ready,
    and `waker` is one that is. -/
structure FirstReady (raised : Option Instant) (others : Instant → Prop) (now t : Instant) (waker : Waker) : Prop where
  le : now ≤ t
  quiet : ∀ v, now ≤ v → v < t → ¬others v ∧ ¬Due raised v
  ready : waker.There (Due raised t) (others t)

/-! ## Waits -/

structure Awaiting (W : Watch) where
  now : Instant
  world : World W
  waiter : Waiter W

namespace Awaiting

def begin (now : Instant) (w : World W) : Awaiting W := ⟨now, w, .fresh w.view⟩

inductive Step (others : Instant → Prop) : Awaiting W → Awaiting W → Prop
  | poll (a : Awaiting W) (x : Waiter W) : a.waiter.Own x → Step others a { a with waiter := x }
  | move (a : Awaiting W) (time : Instant) (m : Move) (rest : List (Instant × Move)) :
      a.world.script = (time, m) :: rest → time ≤ a.now →
      Step others a ⟨a.now, a.world.moved m rest, a.waiter.moved m⟩
  | pass (a : Awaiting W) (u : Instant) : a.now < u → a.waiter.Blocked →
      (∀ next ∈ a.world.script.head?, u ≤ next.1) → (∀ v, a.now ≤ v → v < u → ¬others v) →
      Step others a { a with now := u }

abbrev Steps (others : Instant → Prop) : Awaiting W → Awaiting W → Prop := Relation.ReflTransGen (Step others)

/-- A wait that begins at `now` can be ended at `t` by `waker`, which leaves another world. -/
def Wakes (w : World W) (now : Instant) (others : Instant → Prop) (t : Instant) (waker : Waker) (w' : World W) : Prop :=
  ∃ a, Steps others (begin now w) a ∧ a.now = t ∧ a.world = w' ∧
    waker.There (a.waiter.phase = .returned) (others t)

/-- What holds at every step of a wait that began at `start`. -/
structure OnWatch (raised : Option Instant) (others : Instant → Prop) (start : Instant) (a : Awaiting W) : Prop where
  shows : a.world.Shows a.now raised
  value : W.value a.waiter.view = W.value a.world.view
  closed : W.closed a.waiter.view = W.closed a.world.view
  sound : a.waiter.Sound
  returned : a.waiter.phase = .returned → Due raised a.now
  begun : start ≤ a.now
  quiet : ∀ v, start ≤ v → v < a.now → ¬others v ∧ ¬Due raised v

variable {raised : Option Instant} {others : Instant → Prop} {start now t : Instant} {a b : Awaiting W} {w w' : World W}
  {waker : Waker}

theorem onWatch_begin (shows : w.Shows now raised) : OnWatch raised others now (begin now w) where
  shows := shows
  value := rfl
  closed := rfl
  sound := Waiter.sound_fresh w.view
  returned := nofun
  begun := Nat.le_refl _
  quiet := fun _ le lt => (Nat.not_lt_of_le le lt).elim

/-- Whoever is blocked is so until the flag goes up, at the next of the sender's moves or later. -/
theorem OnWatch.not_due (inv : OnWatch raised others start a) (blocked : a.waiter.Blocked) {u : Instant}
    (ahead : a.now < u) (next : ∀ next ∈ a.world.script.head?, u ≤ next.1) : ∀ v < u, ¬Due raised v := by
  intro v lt due
  have low : W.value a.world.view = false := inv.value.symm.trans (inv.sound.down_of_blocked blocked)
  have upto : max v a.now < u := Nat.max_lt.mpr ⟨lt, ahead⟩
  obtain ⟨z, hz, le⟩ := (inv.shows.down low _ (Nat.le_max_right v a.now)).mpr (due.mono (Nat.le_max_left _ _))
  have later : u ≤ z := World.le_of_upFrom? inv.shows.ordered next hz
  exact Nat.not_lt_of_le (Nat.le_trans later le) upto

theorem OnWatch.step (inv : OnWatch raised others start a) (step : Step others a b) :
    OnWatch raised others start b := by
  cases step with
  | poll x own =>
    obtain ⟨value, closed⟩ := own.view
    refine ⟨inv.shows, value.trans inv.value, closed.trans inv.closed, inv.sound.own own, fun returned => ?_, inv.begun,
      inv.quiet⟩
    refine inv.shows.up ?_
    -- what has just been read is the flag as it is
    obtain ⟨now, world, waiter⟩ := a
    cases own with
    | look v reads =>
      rw [← inv.value]
      cases hv : W.value v with
      | true => rfl
      | false =>
        rw [hv] at returned
        cases returned
    | hear => cases returned
    | close => cases returned
  | move time m rest hscript le =>
    have held : W.closed a.waiter.view = false := inv.closed.trans (World.held_of_script hscript)
    refine ⟨inv.shows.moved hscript le, ?_, ?_, inv.sound.move held m, inv.returned, inv.begun, inv.quiet⟩
    · show W.value (W.move m a.waiter.view) = W.value (W.move m a.world.view)
      rw [W.value_move, W.value_move, inv.value]
    · show W.closed (W.move m a.waiter.view) = W.closed (W.move m a.world.view)
      cases m with
      | send isUp => simpa [Watch.move] using inv.closed
      | drop => simp [Watch.move]
  | pass u ahead blocked next quiet =>
    have le : a.now ≤ u := Nat.le_of_lt ahead
    refine ⟨inv.shows.mono le, inv.value, inv.closed, inv.sound, fun returned => (inv.returned returned).mono le,
      Nat.le_trans inv.begun le, fun v hv lt => ?_⟩
    refine ⟨?_, inv.not_due blocked ahead next v lt⟩
    rcases Nat.lt_or_ge v a.now with early | late
    · exact (inv.quiet v hv early).1
    · exact quiet v late lt

theorem OnWatch.steps (inv : OnWatch raised others start a) (steps : Steps others a b) :
    OnWatch raised others start b := by
  induction steps with
  | refl => exact inv
  | tail _ step ih => exact ih.step step

/-- A wait ends at the first instant at which something is ready, by something that is. -/
theorem firstReady_of_wakes (shows : w.Shows now raised) (wakes : Wakes w now others t waker w') :
    FirstReady raised others now t waker ∧ w'.Shows t raised := by
  obtain ⟨a, steps, rfl, rfl, there⟩ := wakes
  have inv : OnWatch raised others now a := (onWatch_begin shows).steps steps
  refine ⟨⟨inv.begun, inv.quiet, ?_⟩, inv.shows⟩
  cases waker with
  | flag => exact inv.returned there
  | other => exact there

/-! ## No wait is stuck -/

theorem polls {x : Waiter W} (steps : Relation.ReflTransGen Waiter.Own a.waiter x) :
    Steps others a { a with waiter := x } :=
  steps.lift (fun x => ({ a with waiter := x } : Awaiting W)) fun x _ own => .poll { a with waiter := x } _ own

theorem OnWatch.reaches (inv : OnWatch raised others start a) (le : a.now ≤ t)
    (quiet : ∀ v, a.now ≤ v → v < t → ¬others v ∧ ¬Due raised v) :
    ∃ b, Steps others a b ∧ b.now = t := by
  induction hn : a.world.script.length using Nat.strongRecOn generalizing a with
  | ind n ih =>
    rcases Nat.lt_or_eq_of_le le with lt | rfl
    · -- it comes to where it is blocked, for there is nothing to return for
      have undue : ¬Due raised a.now := (quiet a.now (Nat.le_refl _) lt).2
      obtain ⟨x, own, rest⟩ := Waiter.exists_rest a.waiter
      have polled : Steps others a { a with waiter := x } := polls own
      have inv' := inv.steps polled
      have blocked : x.Blocked := by
        rcases rest with returned | blocked
        · exact (undue (inv'.returned returned)).elim
        · exact blocked
      have pass {u : Instant} (lt : a.now < u) (le : u ≤ t)
          (next : ∀ next ∈ a.world.script.head?, u ≤ next.1) : Steps others a ⟨u, a.world, x⟩ :=
        polled.tail (.pass { a with waiter := x } u lt blocked next fun v hv hlt =>
          (quiet v hv (Nat.lt_of_lt_of_le hlt le)).1)
      cases hscript : a.world.script with
      | nil => exact ⟨_, pass lt (Nat.le_refl t) (by simp [hscript]), rfl⟩
      | cons next coming =>
        obtain ⟨time, m⟩ := next
        rcases Nat.lt_or_ge t time with beyond | within
        · have first : ∀ next ∈ a.world.script.head?, t ≤ next.1 := by
            rw [hscript]
            intro next hnext
            cases hnext
            exact Nat.le_of_lt beyond
          exact ⟨_, pass lt (Nat.le_refl t) first, rfl⟩
        · -- up to the sender's next move, which is made, and on from there
          have upto : Steps others a ⟨max a.now time, a.world, x⟩ := by
            rcases Nat.lt_or_ge a.now time with ahead | due
            · rw [Nat.max_eq_right (Nat.le_of_lt ahead)]
              refine pass ahead within ?_
              rw [hscript]
              intro next hnext
              cases hnext
              exact Nat.le_refl _
            · rw [Nat.max_eq_left due]
              exact polled
          have moved : Steps others a ⟨max a.now time, a.world.moved m coming, x.moved m⟩ :=
            upto.tail (.move ⟨max a.now time, a.world, x⟩ time m coming hscript (Nat.le_max_right _ _))
          obtain ⟨b, steps, hb⟩ := ih _ (hn ▸ World.length_script_moved hscript) (inv.steps moved)
            (Nat.max_le.mpr ⟨le, within⟩)
            (fun v hv hlt => quiet v (Nat.le_trans (Nat.le_max_left _ _) hv) hlt) rfl
          exact ⟨b, moved.trans steps, hb⟩
    · exact ⟨a, .refl, rfl⟩

theorem OnWatch.rises (inv : OnWatch raised others start a) (due : Due raised a.now) :
    ∃ b, Steps others a b ∧ b.now = a.now ∧ W.value b.world.view = true := by
  induction hn : a.world.script.length using Nat.strongRecOn generalizing a with
  | ind n ih =>
    cases hv : W.value a.world.view with
    | true => exact ⟨a, .refl, rfl, hv⟩
    | false =>
      obtain ⟨z, up, le⟩ := (inv.shows.down hv _ (Nat.le_refl _)).mpr due
      cases hscript : a.world.script with
      | nil =>
        rw [hscript] at up
        cases up
      | cons next coming =>
        obtain ⟨time, m⟩ := next
        have first : time ≤ z := by
          refine World.le_of_upFrom? inv.shows.ordered ?_ up
          rw [hscript]
          intro next hnext
          cases hnext
          exact Nat.le_refl _
        have moved : Step others a ⟨a.now, a.world.moved m coming, a.waiter.moved m⟩ :=
          .move a time m coming hscript (Nat.le_trans first le)
        obtain ⟨b, steps, hnow, hb⟩ := ih _ (hn ▸ World.length_script_moved hscript) (inv.step moved) due rfl
        exact ⟨b, .head moved steps, hnow, hb⟩

/-- A wait under way can still end at the first instant at which something is ready, by whatever
    is, however it has gone so far. -/
theorem OnWatch.wakes (inv : OnWatch raised others start a) (first : FirstReady raised others start t waker) :
    ∃ b, Steps others a b ∧ b.now = t ∧ waker.There (b.waiter.phase = .returned) (others t) := by
  have le : a.now ≤ t := by
    refine Nat.le_of_not_lt fun lt => ?_
    have unready := inv.quiet t first.le lt
    cases waker with
    | flag => exact unready.2 first.ready
    | other => exact unready.1 first.ready
  obtain ⟨b, steps, hb⟩ := inv.reaches le fun v hv => first.quiet v (Nat.le_trans inv.begun hv)
  subst hb
  cases waker with
  | other => exact ⟨b, steps, rfl, first.ready⟩
  | flag =>
    have inv' : OnWatch raised others start b := inv.steps steps
    obtain ⟨c, more, hnow, up⟩ := inv'.rises first.ready
    have inv'' : OnWatch raised others start c := inv'.steps more
    rw [← inv''.value] at up
    obtain ⟨-, -, x, own, returned⟩ := inv''.sound.wakes_of_up up
    exact ⟨_, steps.trans (more.trans (polls own)), hnow, returned⟩

theorem exists_wakes (shows : w.Shows now raised) (first : FirstReady raised others now t waker) :
    ∃ w', Wakes w now others t waker w' ∧ w'.Shows t raised := by
  obtain ⟨b, steps, hb, there⟩ := (onWatch_begin shows).wakes first
  have inv : OnWatch raised others now b := (onWatch_begin shows).steps steps
  exact ⟨b.world, ⟨b, steps, hb, rfl, there⟩, hb ▸ inv.shows⟩

end Awaiting

end Fleet

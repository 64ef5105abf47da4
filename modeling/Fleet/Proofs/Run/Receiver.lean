/-
  Fleet.Proofs.Run.Receiver — how one waits for the shutdown flag.

  The flag is the value of a watch channel: whoever holds the sender can send values, and
  lets go of it at the end; a receiver reads the newest value and is told when there is one
  that it has not seen. `Watch` is what is known of such a channel, `Watch.counting` one that
  counts its values.

  Whoever waits reads the newest value, returns if the flag is up, and else waits for a change
  and reads again; if there can be none because the sender is gone it waits for ever
  (`Waiter.Own`). Between any two of its steps the sender may make the next of its moves
  (`Waiter.Runs`). `Waiter.Sound` is what every step keeps: it has returned exactly where it
  has read a flag that was up, and where it listens with nothing unseen, or has given up
  listening, the flag is down. So a flag that is up is never missed as long as it stays up,
  whatever the receiver had seen before, and a sender that goes away wakes nobody
  (`Waiter.heeds`).
-/

import Fleet.Run.Switch
import Mathlib.Logic.Relation

namespace Fleet

/-! ## Channels -/

/-- A watch channel of one Boolean value as one of its receivers sees it. -/
structure Watch where
  View : Type
  value : View → Bool
  /-- Whether the receiver has marked the newest value as seen. -/
  seen : View → Bool
  closed : View → Bool
  send : Bool → View → View
  drop : View → View
  mark : View → View
  value_send : ∀ b v, value (send b v) = b
  seen_send : ∀ b v, seen (send b v) = false
  closed_send : ∀ b v, closed (send b v) = closed v
  value_drop : ∀ v, value (drop v) = value v
  seen_drop : ∀ v, seen (drop v) = seen v
  closed_drop : ∀ v, closed (drop v) = true
  value_mark : ∀ v, value (mark v) = value v
  seen_mark : ∀ v, seen (mark v) = true
  closed_mark : ∀ v, closed (mark v) = closed v

attribute [simp] Watch.value_send Watch.seen_send Watch.closed_send Watch.value_drop Watch.seen_drop Watch.closed_drop
  Watch.value_mark Watch.seen_mark Watch.closed_mark

inductive Move where
  | send (isUp : Bool)
  | drop
  deriving DecidableEq, Repr

def Move.after (isUp : Bool) : Move → Bool
  | .send isUp => isUp
  | .drop => isUp

def Watch.move (W : Watch) : Move → W.View → W.View
  | .send isUp, v => W.send isUp v
  | .drop, v => W.drop v

theorem Watch.value_move (W : Watch) (m : Move) (v : W.View) : W.value (W.move m v) = m.after (W.value v) := by
  cases m with
  | send isUp => exact W.value_send isUp v
  | drop => exact W.value_drop v

/-- A value with its number, and the number of the last one that the receiver has seen. -/
structure Numbered where
  number : Nat
  seen : Nat
  value : Bool
  closed : Bool
  seen_le : seen ≤ number

def Watch.counting : Watch where
  View := Numbered
  value v := v.value
  seen v := v.seen == v.number
  closed v := v.closed
  send b v := ⟨v.number + 1, v.seen, b, v.closed, Nat.le_succ_of_le v.seen_le⟩
  drop v := { v with closed := true }
  mark v := { v with seen := v.number, seen_le := Nat.le_refl _ }
  value_send _ _ := rfl
  seen_send _ v := beq_false_of_ne (Nat.ne_of_lt (Nat.lt_succ_of_le v.seen_le))
  closed_send _ _ := rfl
  value_drop _ := rfl
  seen_drop _ := rfl
  closed_drop _ := rfl
  value_mark _ := rfl
  seen_mark _ := beq_self_eq_true _
  closed_mark _ := rfl

/-! ## Waiting -/

variable {W : Watch}

inductive Waiter.Phase where
  | looking
  | listening
  | stuck
  | returned
  deriving DecidableEq, Repr

/-- Someone who waits for the flag to be up, with a receiver of their own. -/
structure Waiter (W : Watch) where
  view : W.View
  phase : Waiter.Phase
  reads : List Bool

namespace Waiter

/-- Someone who has just begun to wait, with a receiver that may have seen anything. -/
def fresh (v : W.View) : Waiter W := ⟨v, .looking, []⟩

def moved (x : Waiter W) (m : Move) : Waiter W := { x with view := W.move m x.view }

inductive Own : Waiter W → Waiter W → Prop
  | look (v : W.View) (reads : List Bool) :
      Own ⟨v, .looking, reads⟩ ⟨W.mark v, if W.value v then .returned else .listening, reads ++ [W.value v]⟩
  /-- A change is there before the end of the channel is. -/
  | hear (v : W.View) (reads : List Bool) : W.seen v = false →
      Own ⟨v, .listening, reads⟩ ⟨W.mark v, .looking, reads⟩
  | close (v : W.View) (reads : List Bool) : W.seen v = true → W.closed v = true →
      Own ⟨v, .listening, reads⟩ ⟨v, .stuck, reads⟩

/-- The sender makes these moves, as long as it is there, and whoever waits takes steps between
    them. -/
inductive Runs : List Move → Waiter W → Waiter W → Prop
  | rest (x : Waiter W) : Runs [] x x
  | own {ms : List Move} {x y z : Waiter W} : Own x y → Runs ms y z → Runs ms x z
  | move {ms : List Move} {x z : Waiter W} (m : Move) : W.closed x.view = false → Runs ms (x.moved m) z →
      Runs (m :: ms) x z

def Blocked (x : Waiter W) : Prop := x.phase ≠ .returned ∧ ∀ y, ¬Own x y

structure Sound (x : Waiter W) : Prop where
  returned : x.phase = .returned ↔ true ∈ x.reads
  listening : x.phase = .listening → W.seen x.view = true → W.value x.view = false
  stuck : x.phase = .stuck → W.closed x.view = true ∧ W.value x.view = false

variable {x y : Waiter W}

theorem sound_fresh (v : W.View) : (fresh v).Sound where
  returned := by simp [fresh]
  listening := nofun
  stuck := nofun

theorem Sound.own (sound : x.Sound) (step : Own x y) : y.Sound := by
  cases step with
  | look v reads =>
    have unread : true ∉ reads := fun h => nomatch sound.returned.mpr h
    cases hv : W.value v with
    | true =>
      exact ⟨by simp, nofun, nofun⟩
    | false =>
      refine ⟨by simp [unread], fun _ _ => ?_, nofun⟩
      simpa using hv
  | hear v reads unseen =>
    have unread : true ∉ reads := fun h => nomatch sound.returned.mpr h
    exact ⟨by simp [unread], nofun, nofun⟩
  | close v reads seen closed =>
    have unread : true ∉ reads := fun h => nomatch sound.returned.mpr h
    exact ⟨by simp [unread], nofun, fun _ => ⟨closed, sound.listening rfl seen⟩⟩

theorem Sound.move (sound : x.Sound) (held : W.closed x.view = false) (m : Move) : (x.moved m).Sound where
  returned := sound.returned
  listening := by
    intro phase seen
    cases m with
    | send b =>
      -- a value that has just been sent has not been seen
      simp [moved, Watch.move] at seen
    | drop =>
      simp only [moved, Watch.move, Watch.seen_drop, Watch.value_drop] at seen ⊢
      exact sound.listening phase seen
  stuck := by
    intro phase
    rw [(sound.stuck phase).1] at held
    cases held

theorem Sound.runs {ms : List Move} (sound : x.Sound) (run : Runs ms x y) : y.Sound := by
  induction run with
  | rest => exact sound
  | own step _ ih => exact ih (sound.own step)
  | move m held _ ih => exact ih (sound.move held m)

/-! ## Nothing is missed -/

theorem Sound.down_of_blocked (sound : x.Sound) (blocked : x.Blocked) : W.value x.view = false := by
  obtain ⟨v, phase, reads⟩ := x
  cases phase with
  | looking => exact (blocked.2 _ (.look v reads)).elim
  | listening =>
    cases hs : W.seen v with
    | true => exact sound.listening rfl hs
    | false => exact (blocked.2 _ (.hear v reads hs)).elim
  | stuck => exact (sound.stuck rfl).2
  | returned => exact (blocked.1 rfl).elim

/-- Nobody goes on for ever on their own. -/
theorem acc_own (x : Waiter W) : Acc (flip Own) x := by
  have done (v : W.View) (reads : List Bool) (phase : Phase) (h : phase = .stuck ∨ phase = .returned) :
      Acc (flip Own) (⟨v, phase, reads⟩ : Waiter W) := by
    refine ⟨_, fun y step => ?_⟩
    rcases h with rfl | rfl <;> cases step
  have listening (v : W.View) (reads : List Bool) (seen : W.seen v = true) :
      Acc (flip Own) (⟨v, .listening, reads⟩ : Waiter W) := by
    refine ⟨_, fun y step => ?_⟩
    cases step with
    | hear _ _ unseen =>
      rw [seen] at unseen
      cases unseen
    | close => exact done v reads _ (.inl rfl)
  have looking (v : W.View) (reads : List Bool) : Acc (flip Own) (⟨v, .looking, reads⟩ : Waiter W) := by
    refine ⟨_, fun y step => ?_⟩
    cases step with
    | look =>
      cases hv : W.value v with
      | true => exact done _ _ _ (.inr rfl)
      | false => exact listening _ _ (W.seen_mark v)
  obtain ⟨v, phase, reads⟩ := x
  cases phase with
  | looking => exact looking v reads
  | listening =>
    refine ⟨_, fun y step => ?_⟩
    cases step with
    | hear => exact looking _ _
    | close => exact done v reads _ (.inl rfl)
  | stuck => exact done v reads _ (.inl rfl)
  | returned => exact done v reads _ (.inr rfl)

theorem Own.view (step : Own x y) : W.value y.view = W.value x.view ∧ W.closed y.view = W.closed x.view := by
  cases step with
  | look => exact ⟨W.value_mark _, W.closed_mark _⟩
  | hear => exact ⟨W.value_mark _, W.closed_mark _⟩
  | close => exact ⟨rfl, rfl⟩

/-- On their own, everyone comes to where they return or are blocked. -/
theorem exists_rest (x : Waiter W) :
    ∃ y, Relation.ReflTransGen Own x y ∧ (y.phase = .returned ∨ y.Blocked) := by
  induction acc_own x with
  | intro x _ ih =>
    by_cases returned : x.phase = .returned
    · exact ⟨x, .refl, .inl returned⟩
    by_cases own : ∃ y, Own x y
    · obtain ⟨y, step⟩ := own
      obtain ⟨z, steps, rest⟩ := ih y step
      exact ⟨z, .head step steps, rest⟩
    · exact ⟨x, .refl, .inr ⟨returned, fun y step => own ⟨y, step⟩⟩⟩

theorem Sound.owns (sound : x.Sound) (steps : Relation.ReflTransGen Own x y) :
    y.Sound ∧ W.value y.view = W.value x.view ∧ W.closed y.view = W.closed x.view := by
  induction steps with
  | refl => exact ⟨sound, rfl, rfl⟩
  | tail _ step ih =>
    obtain ⟨sound, value, closed⟩ := ih
    exact ⟨sound.own step, step.view.1.trans value, step.view.2.trans closed⟩

/-- While the flag is up nobody who waits is held up, and all that is left for them to do is to
    return. -/
theorem Sound.wakes_of_up (sound : x.Sound) (up : W.value x.view = true) :
    Acc (flip Own) x ∧ (∀ y, Relation.ReflTransGen Own x y → ¬y.Blocked) ∧
      ∃ y, Relation.ReflTransGen Own x y ∧ y.phase = .returned := by
  have unblocked : ∀ y, Relation.ReflTransGen Own x y → ¬y.Blocked := by
    intro y steps blocked
    obtain ⟨sound', value, -⟩ := sound.owns steps
    rw [sound'.down_of_blocked blocked, up] at value
    cases value
  obtain ⟨y, steps, returned | blocked⟩ := exists_rest x
  · exact ⟨acc_own x, unblocked, y, steps, returned⟩
  · exact (unblocked y steps blocked).elim

/-! ## Every history -/

theorem Runs.reads {ms : List Move} (run : Runs ms x y) :
    ∀ b ∈ y.reads, b ∈ x.reads ∨ b = W.value x.view ∨ .send b ∈ ms := by
  induction run with
  | rest => exact fun b hb => .inl hb
  | own step _ ih =>
    intro b hb
    have view := step.view.1
    cases step with
    | look v reads =>
      rcases ih b hb with h | h | h
      · rcases List.mem_append.mp h with h | h
        · exact .inl h
        · exact .inr (.inl (List.mem_singleton.mp h))
      · exact .inr (.inl (h.trans view))
      · exact .inr (.inr h)
    | hear => exact (ih b hb).imp_right fun h => h.imp_left fun h => h.trans view
    | close => exact ih b hb
  | move m held _ ih =>
    intro b hb
    rcases ih b hb with h | h | h
    · exact .inl h
    · rw [moved, W.value_move] at h
      cases m with
      | send isUp => exact .inr (.inr (h ▸ List.mem_cons_self))
      | drop => exact .inr (.inl h)
    · exact .inr (.inr (List.mem_cons_of_mem _ h))

theorem Runs.value {ms : List Move} (run : Runs ms x y) : W.value y.view = ms.foldl Move.after (W.value x.view) := by
  induction run with
  | rest => rfl
  | own step _ ih => rw [ih, step.view.1]
  | move m held _ ih => rw [ih, List.foldl_cons, moved, W.value_move]

/-- How someone stands who began to wait with a receiver of this view, when the sender has made
    these moves. -/
structure Heeds (v : W.View) (ms : List Move) (x : Waiter W) : Prop where
  returned : x.phase = .returned ↔ true ∈ x.reads
  reads : ∀ b ∈ x.reads, b = W.value v ∨ .send b ∈ ms
  blocked : x.Blocked → ms.foldl Move.after (W.value v) = false
  up : ms.foldl Move.after (W.value v) = true → Acc (flip Own) x ∧
    (∀ y, Relation.ReflTransGen Own x y → ¬y.Blocked) ∧ ∃ y, Relation.ReflTransGen Own x y ∧ y.phase = .returned
  down : W.value v = false → .send true ∉ ms → x.phase ≠ .returned

/-- Whatever is sent, and whether the sender goes away at the end or not, everyone heeds the
    flag as it is, whatever the receiver they began with had seen. -/
theorem heeds {ms : List Move} {v : W.View} (run : Runs ms (fresh v) x) : Heeds v ms x := by
  have sound : x.Sound := (sound_fresh v).runs run
  have value : W.value x.view = ms.foldl Move.after (W.value v) := run.value
  have reads : ∀ b ∈ x.reads, b = W.value v ∨ .send b ∈ ms := by
    intro b hb
    rcases run.reads b hb with h | h
    · cases h
    · exact h
  refine ⟨sound.returned, reads, fun blocked => ?_, fun up => ?_, fun first unsent returned => ?_⟩
  · rw [← value]
    exact sound.down_of_blocked blocked
  · rw [← value] at up
    exact sound.wakes_of_up up
  · rcases reads true (sound.returned.mp returned) with h | h
    · rw [first] at h
      cases h
    · exact unsent h

end Waiter

end Fleet

/-
  Fleet.Logged — a computation that may fail and has something to say either way: its
  events stand beside its result, so what was said before an error is not lost with it.
-/

import Fleet.Event

namespace Fleet

structure Logged (ε α : Type) where
  result : Except ε α
  events : List Event := []

namespace Logged

variable {ε α β : Type}

protected def pure (a : α) : Logged ε α := ⟨.ok a, []⟩

/-- The second computation runs, and speaks, only if the first succeeds. -/
protected def bind (x : Logged ε α) (f : α → Logged ε β) : Logged ε β :=
  match x.result with
  | .ok a => ⟨(f a).result, x.events ++ (f a).events⟩
  | .error e => ⟨.error e, x.events⟩

instance : Monad (Logged ε) where
  pure := Logged.pure
  bind := Logged.bind

def fail (e : ε) : Logged ε α := ⟨.error e, []⟩

def note (event : Event) : Logged ε Unit := ⟨.ok (), [event]⟩

def ofExcept (r : Except ε α) : Logged ε α := ⟨r, []⟩

def mapError {ε' : Type} (f : ε → ε') (x : Logged ε α) : Logged ε' α := ⟨x.result.mapError f, x.events⟩

@[simp] theorem pure_result (a : α) : (pure a : Logged ε α).result = .ok a := rfl
@[simp] theorem note_result (event : Event) : (note event : Logged ε Unit).result = .ok () := rfl
@[simp] theorem ofExcept_result (r : Except ε α) : (ofExcept r).result = r := rfl

theorem pure_eq (a : α) : (pure a : Logged ε α) = ⟨.ok a, []⟩ := rfl

theorem ok_bind (a : α) (events : List Event) (f : α → Logged ε β) :
    (⟨.ok a, events⟩ >>= f : Logged ε β) = ⟨(f a).result, events ++ (f a).events⟩ := rfl

theorem error_bind (e : ε) (events : List Event) (f : α → Logged ε β) :
    (⟨.error e, events⟩ >>= f : Logged ε β) = ⟨.error e, events⟩ := rfl

theorem bind_result (x : Logged ε α) (f : α → Logged ε β) :
    (x >>= f).result = x.result >>= fun a => (f a).result := by
  show (Logged.bind x f).result = _
  unfold Logged.bind
  cases x.result with
  | ok a => rfl
  | error e => rfl

theorem bind_eq_ok_iff {x : Logged ε α} {f : α → Logged ε β} {b : β} :
    (x >>= f).result = .ok b ↔ ∃ a, x.result = .ok a ∧ (f a).result = .ok b := by
  show (Logged.bind x f).result = .ok b ↔ _
  unfold Logged.bind
  cases x.result with
  | ok a => simp
  | error e => simp

end Logged

end Fleet

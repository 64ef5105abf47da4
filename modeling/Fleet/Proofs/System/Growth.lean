/-
  Fleet.Proofs.System.Growth — files that grow, and machines on which processes make them grow.

  `Files.Grows`: every file holds what it held before and then what was left at its place. It
  composes (`Grows.trans`), and each thing that is done for a log is a case of it: making the
  directories above it, opening it, and writing to its end.

  `Machine.adds_settle_settle`: processes that write to nothing but their streams add to the ends
  of files, in the order of their effects, however often the machine settles meanwhile.
-/

import Fleet.Proofs.System.Places
import Fleet.System.Machine

namespace Fleet.System

open Fleet.Text

/-! ## Growth -/

abbrev Left := Option (Place × Bytes)

def leftAt (q : Place) (lefts : List Left) : List Bytes :=
  lefts.filterMap fun left => left.bind fun (place, bytes) => if place = q then some bytes else none

theorem leftAt_append (q : Place) (a b : List Left) : leftAt q (a ++ b) = leftAt q a ++ leftAt q b :=
  List.filterMap_append

/-- A file's content with parts added to its end. The first part makes the file. -/
def extended (old : Option Bytes) (parts : List Bytes) : Option Bytes :=
  if parts = [] then old else some (old.getD [] ++ parts.flatten)

theorem extended_append (old : Option Bytes) (a b : List Bytes) :
    extended old (a ++ b) = extended (extended old a) b := by
  by_cases ha : a = [] <;> by_cases hb : b = [] <;> simp [extended, ha, hb]

namespace Files

def Regular (fs : Files) (q : Place) : Prop :=
  ∀ e, fs.lookup? q = some e → e = .directory ∨ ∃ content executable, e = .file content executable

/-- Every file holds what it held before, and then what was left at its place. -/
structure Grows (fs next : Files) (lefts : List Left) : Prop where
  here : next.here = fs.here
  regular : ∀ q, fs.Regular q → next.Regular q
  content : ∀ q, fs.Regular q → next.content? q = extended (fs.content? q) (leftAt q lefts)

variable {fs mid next : Files} {lefts more : List Left} {place : Place} {bytes : Bytes}

theorem Grows.refl (fs : Files) : Grows fs fs [] := ⟨rfl, fun _ h => h, fun _ _ => rfl⟩

theorem Grows.trans (first : Grows fs mid lefts) (second : Grows mid next more) : Grows fs next (lefts ++ more) where
  here := second.here.trans first.here
  regular q hq := second.regular q (first.regular q hq)
  content q hq := by
    rw [second.content q (first.regular q hq), first.content q hq, leftAt_append, extended_append]

theorem content?_congr {q : Place} (h : next.lookup? q = fs.lookup? q) : next.content? q = fs.content? q := by
  simp only [content?, h]

theorem Regular.congr {q : Place} (hq : fs.Regular q) (h : next.lookup? q = fs.lookup? q) : next.Regular q :=
  fun e he => hq e (h ▸ he)

theorem Grows.none (h : Grows fs next []) : Grows fs next [none] := ⟨h.here, h.regular, h.content⟩

theorem grows_of_same (here : next.here = fs.here) (same : ∀ q, next.lookup? q = fs.lookup? q) : Grows fs next [] :=
  ⟨here, fun q hq => hq.congr (same q), fun q _ => content?_congr (same q)⟩

theorem AddsDirectories.grows (h : AddsDirectories fs next) : Grows fs next [] where
  here := h.here
  regular q hq := by
    rcases h.places q with same | ⟨-, made⟩
    · exact hq.congr same
    · intro e he
      rw [made] at he
      cases he
      exact .inl rfl
  content q _ := by
    rcases h.places q with same | ⟨empty, made⟩
    · exact content?_congr same
    · simp only [content?, empty, made]
      rfl

theorem Opens.grows (h : Opens fs place next) : Grows fs next [some (place, [])] where
  here := h.here
  regular q hq := by
    by_cases here : q = place
    · subst here
      rcases h.opened with ⟨e, -, before, after⟩ | ⟨-, executable, after⟩
      · exact hq.congr (after.trans before.symm)
      · intro e he
        rw [after] at he
        cases he
        exact .inr ⟨_, _, rfl⟩
    · exact hq.congr (h.others q here)
  content q hq := by
    by_cases here : q = place
    · subst here
      rcases h.opened with ⟨e, nodir, before, after⟩ | ⟨before, executable, after⟩
      · rcases hq e before with dir | ⟨content, executable, rfl⟩
        · exact absurd dir nodir
        · simp [content?, before, after, extended, leftAt]
      · simp [content?, before, after, extended, leftAt]
    · have other : place ≠ q := Ne.symm here
      simp [content?_congr (h.others q here), extended, leftAt, other]

theorem Grows.write (h : Grows fs mid [some (place, [])]) (here : next.here = mid.here)
    (written : ∀ q, next.lookup? q = (mid.lookup? q).map (Entry.grown (if q = place then bytes else []))) :
    Grows fs next [some (place, bytes)] where
  here := here.trans h.here
  regular q hq := by
    intro e he
    rw [written q, Option.map_eq_some_iff] at he
    obtain ⟨old, hold, rfl⟩ := he
    rcases h.regular q hq old hold with rfl | ⟨content, executable, rfl⟩
    · exact .inl rfl
    · exact .inr ⟨_, _, rfl⟩
  content q hq := by
    by_cases same : q = place
    · subst same
      have opened : mid.content? q = some ((fs.content? q).getD [] ++ []) := by
        simpa [extended, leftAt] using h.content q hq
      obtain ⟨executable, hfile⟩ := lookup?_of_content? opened
      have after := written q
      rw [if_pos rfl, hfile] at after
      simp [content?, after, Entry.grown, extended, leftAt]
    · have other : place ≠ q := Ne.symm same
      have kept : mid.content? q = fs.content? q := by
        simpa [extended, leftAt, other] using h.content q hq
      have after : next.lookup? q = mid.lookup? q := by
        rw [written q, if_neg same]
        cases mid.lookup? q <;> simp
      rw [content?_congr after, kept]
      simp [extended, leftAt, other]

end Files

end Fleet.System

/-! ## Effects -/

namespace Fleet.Shell

open Fleet.System Fleet.Text

def Effect.addedTo (effect : Effect) (q : Place) : Bytes :=
  match effect with
  | .append place bytes => if q = place then bytes else []
  | _ => []

/-- An effect that a process has through one of its streams, or on no stream and no file. -/
def Effect.Through (stream : Stream) : Effect → Prop
  | .out _ => stream = .out
  | .err _ => stream = .err
  | .append place _ => stream = .file place
  | .put _ _ | .remove _ => False
  | .ask => True

theorem Effect.Through.addedTo_file {effect : Effect} {place : Place} (through : effect.Through (.file place)) (q : Place) :
    effect.addedTo q = if q = place then effect.addedTo place else [] := by
  cases effect with
  | append at_ bytes =>
    cases through
    simp [addedTo]
  | _ => simp [addedTo]

theorem Effect.Through.addedTo_nil {effect : Effect} (through : effect.Through .out ∨ effect.Through .err) (q : Place) :
    effect.addedTo q = [] := by
  cases effect with
  | append at_ bytes => rcases through with through | through <;> cases through
  | _ => rfl

end Fleet.Shell

namespace Fleet.System

open Fleet.Shell Fleet.Text

/-! ## Machines -/

def addedBy (effects : List (Instant × Effect)) (q : Place) : Bytes := effects.flatMap (·.2.addedTo q)

namespace Machine

variable {m next last : Machine} {effects : List (Instant × Effect)} {now time : Instant}

/-- A machine on which some was added to the ends of files, and no file has changed otherwise. -/
structure Adds (m next : Machine) (bytes : Place → Bytes) : Prop where
  here : next.files.here = m.files.here
  places : ∀ q, next.files.lookup? q = (m.files.lookup? q).map (Entry.grown (bytes q))

theorem adds_of_files (h : next.files = m.files) : Adds m next fun _ => [] :=
  ⟨by rw [h], fun q => by rw [h]; cases m.files.lookup? q <;> simp⟩

theorem Adds.trans {a b : Place → Bytes} (first : Adds m next a) (second : Adds next last b) :
    Adds m last fun q => a q ++ b q where
  here := second.here.trans first.here
  places q := by
    rw [second.places, first.places, Option.map_map]
    congr 1
    funext e
    exact (e.grown_append _ _).symm

theorem adds_apply {effect : Effect} {stream : Stream} (through : effect.Through stream) (m : Machine) (time : Instant) :
    Adds m (m.apply time effect) effect.addedTo := by
  cases effect with
  | out | err | ask => exact adds_of_files rfl
  | append place bytes => exact ⟨Files.here_append .., Files.lookup?_append _ _ _⟩
  | put | remove => exact through.elim

def play (m : Machine) (effects : List (Instant × Effect)) : Machine :=
  effects.foldl (fun m (time, effect) => m.apply time effect) m

theorem pending_play (m : Machine) (effects : List (Instant × Effect)) : (m.play effects).pending = m.pending := by
  induction effects generalizing m with
  | nil => rfl
  | cons e rest ih =>
    obtain ⟨time, effect⟩ := e
    refine (ih (m.apply time effect)).trans ?_
    cases effect <;> rfl

theorem adds_play (plain : ∀ e ∈ effects, ∃ stream, e.2.Through stream) (m : Machine) :
    Adds m (m.play effects) (addedBy effects) := by
  induction effects generalizing m with
  | nil => exact adds_of_files rfl
  | cons e rest ih =>
    obtain ⟨stream, through⟩ := plain e List.mem_cons_self
    have first : Adds m (m.apply e.1 e.2) e.2.addedTo := adds_apply through m e.1
    exact first.trans (ih (fun e he => plain e (List.mem_cons_of_mem _ he)) (m.apply e.1 e.2))

/-! ### Settling -/

theorem due_append_later (ordered : effects.Pairwise (·.1 ≤ ·.1)) (now : Instant) :
    effects.filter (·.1 ≤ now) ++ effects.filter (now < ·.1) = effects := by
  induction effects with
  | nil => rfl
  | cons e rest ih =>
    obtain ⟨first, ordered⟩ := List.pairwise_cons.mp ordered
    by_cases due : e.1 ≤ now
    · simp [due, Nat.not_lt_of_le due, ih ordered]
    · have later : ∀ x ∈ rest, now < x.1 := fun x hx => Nat.lt_of_lt_of_le (Nat.lt_of_not_le due) (first x hx)
      have no_due : rest.filter (·.1 ≤ now) = [] :=
        List.filter_eq_nil_iff.mpr fun x hx => by simpa using later x hx
      have all_later : rest.filter (now < ·.1) = rest :=
        List.filter_eq_self.mpr fun x hx => by simpa using later x hx
      simp [due, Nat.lt_of_not_le due, no_due, all_later]

theorem settle_eq_play (ordered : m.pending.Pairwise (·.1 ≤ ·.1)) (now : Instant) :
    m.settle now = { m with pending := m.pending.filter (now < ·.1) }.play (m.pending.filter (·.1 ≤ now)) := by
  have sorted : (m.pending.filter (·.1 ≤ now)).Pairwise fun a b => decide (a.1 ≤ b.1) :=
    (ordered.filter _).imp fun le => decide_eq_true le
  rw [settle, List.mergeSort_of_pairwise sorted]
  rfl

theorem adds_settle (ordered : m.pending.Pairwise (·.1 ≤ ·.1)) (plain : ∀ e ∈ m.pending, ∃ stream, e.2.Through stream)
    (now : Instant) : Adds m (m.settle now) (addedBy (m.pending.filter (·.1 ≤ now))) := by
  have kept : ∀ e ∈ m.pending.filter (·.1 ≤ now), ∃ stream, e.2.Through stream :=
    fun e he => plain e (List.mem_filter.mp he).1
  have played := adds_play kept { m with pending := m.pending.filter (now < ·.1) }
  rw [settle_eq_play ordered]
  exact ⟨played.here, played.places⟩

theorem settle_idle (idle : m.pending = []) (now : Instant) : m.settle now = m := by
  rw [settle_eq_play (idle ▸ List.Pairwise.nil)]
  cases m
  cases idle
  rfl

/-- A machine settles twice, at the start of a process and at its end: everything that the
    process does has happened then. -/
theorem adds_settle_settle (ordered : m.pending.Pairwise (·.1 ≤ ·.1)) (past : ∀ e ∈ m.pending, e.1 ≤ time)
    (plain : ∀ e ∈ m.pending, ∃ stream, e.2.Through stream) (now : Instant) :
    ((m.settle now).settle time).pending = [] ∧ Adds m ((m.settle now).settle time) (addedBy m.pending) := by
  have rest : (m.settle now).pending = m.pending.filter (now < ·.1) := by
    rw [settle_eq_play ordered, pending_play]
  have due : (m.settle now).pending.filter (·.1 ≤ time) = m.pending.filter (now < ·.1) := by
    rw [rest]
    exact List.filter_eq_self.mpr fun e he => by simpa using past e (List.mem_filter.mp he).1
  have later : (m.settle now).pending.filter (time < ·.1) = [] := by
    rw [rest]
    exact List.filter_eq_nil_iff.mpr fun e he => by simpa using past e (List.mem_filter.mp he).1
  have ordered' : (m.settle now).pending.Pairwise (·.1 ≤ ·.1) := rest ▸ ordered.filter _
  have second := adds_settle ordered' (fun e he => plain e (List.mem_filter.mp (rest ▸ he)).1) time
  rw [due] at second
  have whole : (fun q => addedBy (m.pending.filter (·.1 ≤ now)) q ++ addedBy (m.pending.filter (now < ·.1)) q) =
      addedBy m.pending := by
    funext q
    rw [addedBy, addedBy, ← List.flatMap_append, due_append_later ordered, addedBy]
  constructor
  · rw [settle_eq_play ordered', pending_play, later]
  · exact whole ▸ (adds_settle ordered plain now).trans second

end Machine

end Fleet.System

/-
  Fleet.Proofs.Run.Timetable — when a sweep starts its batches and when it is over if
  nothing cuts it short, in closed form: no loop and no order of events is left in it.

  A batch takes as long as its longest worker, or until its timeout (`Pacing.span?`); a pause
  follows each of them, and the next starts when that is over. `ClientLaunch.timetable`
  lists the batches (`Trial`); `timetable_isChain` and `timetable_back` say how each of them
  follows from the one before, `timetable_back_sum` what that adds up to.
-/

import Fleet.Proofs.Run.Batch
import Fleet.Proofs.Run.Tally
import Fleet.Run.Sweep
import Mathlib.Algebra.GroupWithZero.Nat
import Mathlib.Data.List.Chain

namespace Fleet

variable {σ : Type}

/-! ## How long workers take -/

/-- No worker ends before it starts. -/
def Host.Forward (h : Host σ) : Prop :=
  ∀ place now c time ending, (h.start place now c).2.fate = .ends time ending → now ≤ time

theorem Host.Forward.ahead {h : Host σ} (forward : h.Forward) {now : Instant} {place : σ} {commands : List Command} :
    ∀ w ∈ h.batchWorkers now place commands, ∀ u ∈ w.endTime?, now ≤ u := by
  induction commands generalizing place with
  | nil => simp [batchWorkers, startAll, workersOf]
  | cons c rest ih =>
    intro w hw u hu
    rw [batchWorkers_cons] at hw
    rcases List.mem_cons.mp hw with rfl | hw
    · cases hf : (h.start place now c).2.fate with
      | never => simp [Worker.endTime?, hf] at hu
      | ends time ending =>
        obtain rfl : time = u := by simpa [Worker.endTime?, hf] using hu
        exact forward place now c time ending hf
    · exact ih w hw u hu

def Worker.length? (w : Worker) : Option Nat := w.endTime?.map (· - w.started)

def longest? : List Worker → Option Nat
  | [] => some 0
  | w :: rest =>
    match w.length?, longest? rest with
    | some a, some b => some (max a b)
    | _, _ => none

section Longest

variable {start : Instant} {ws : List Worker}

theorem longest?_cons {w : Worker} {m : Nat} : longest? (w :: ws) = some m ↔
    ∃ a b, w.length? = some a ∧ longest? ws = some b ∧ m = max a b := by
  rw [longest?]
  cases w.length? <;> cases longest? ws <;> simp [eq_comm]

theorem length?_le_longest? {m : Nat} (h : longest? ws = some m) : ∀ w ∈ ws, ∃ a, w.length? = some a ∧ a ≤ m := by
  induction ws generalizing m with
  | nil => simp
  | cons w rest ih =>
    obtain ⟨a, b, ha, hb, rfl⟩ := longest?_cons.mp h
    intro w' hw'
    rcases List.mem_cons.mp hw' with rfl | hw'
    · exact ⟨a, ha, Nat.le_max_left _ _⟩
    · obtain ⟨c, hc, le⟩ := ih hb w' hw'
      exact ⟨c, hc, Nat.le_trans le (Nat.le_max_right _ _)⟩

theorem longest?_isSome : (longest? ws).isSome ↔ ∀ w ∈ ws, w.endTime?.isSome := by
  induction ws with
  | nil => simp [longest?]
  | cons w rest ih =>
    rw [longest?, Worker.length?, List.forall_mem_cons, ← ih]
    cases w.endTime? <;> cases longest? rest <;> simp

/-- Workers that start together have all ended when the longest has. -/
theorem lastEnd?_eq_longest? (started : ∀ w ∈ ws, w.started = start) (ahead : ∀ w ∈ ws, ∀ u ∈ w.endTime?, start ≤ u) :
    lastEnd? start ws = (longest? ws).map (start + ·) := by
  induction ws with
  | nil => rfl
  | cons w rest ih =>
    have hrest := ih (fun w' hw' => started w' (List.mem_cons_of_mem _ hw'))
      fun w' hw' => ahead w' (List.mem_cons_of_mem _ hw')
    have hw := started w List.mem_cons_self
    have hahead := ahead w List.mem_cons_self
    rw [lastEnd?, longest?, hrest, Worker.length?, hw]
    cases he : w.endTime? with
    | none => rfl
    | some u =>
      have le : start ≤ u := hahead u he
      cases longest? rest with
      | none => rfl
      | some b =>
        simp only [Option.map_some, Option.some.injEq]
        lia

end Longest

/-! ## How long a batch takes -/

namespace Pacing

/-- How long some workers are waited for: until the longest has ended, or the timeout. -/
def span? (pacing : Pacing) (ws : List Worker) : Option Nat := earlier? pacing.timeout (longest? ws)

variable {pacing : Pacing} {ws : List Worker}

theorem span?_isSome : (pacing.span? ws).isSome ↔ pacing.timeout.isSome ∨ ∀ w ∈ ws, w.endTime?.isSome := by
  rw [span?, ← longest?_isSome]
  cases pacing.timeout <;> cases longest? ws <;> simp [earlier?]

theorem span?_le_timeout {length e : Nat} (ht : pacing.timeout = some length) (he : pacing.span? ws = some e) :
    e ≤ length := by
  rw [span?, ht] at he
  cases hm : longest? ws <;> rw [hm] at he <;> cases he
  · exact Nat.le_refl _
  · exact Nat.min_le_left _ _

theorem earlier?_deadline {start : Instant} (started : ∀ w ∈ ws, w.started = start)
    (ahead : ∀ w ∈ ws, ∀ u ∈ w.endTime?, start ≤ u) :
    earlier? (pacing.deadline start) (lastEnd? start ws) = (pacing.span? ws).map (start + ·) := by
  rw [lastEnd?_eq_longest? started ahead, deadline, span?]
  cases pacing.timeout <;> cases longest? ws <;>
    simp only [earlier?, Option.map_none, Option.map_some, Option.some.injEq]
  lia

end Pacing

namespace Clock

theorem le_pauseEnd (now : Instant) (length : Nat) : now ≤ pauseEnd now length := by
  unfold pauseEnd deadline?
  split
  · exact Nat.le_add_right _ _
  · exact Nat.le_add_right _ _

theorem pauseEnd_eq {now : Instant} {length : Nat} (held : now + length < horizon) :
    pauseEnd now length = now + length := by
  rw [pauseEnd, deadline?, if_pos held, Option.getD_some]

theorem eq_zero_of_pauseEnd_le {now : Instant} {length : Nat} (le : pauseEnd now length ≤ now) : length = 0 := by
  unfold pauseEnd deadline? at le
  split at le
  · rw [Option.getD_some] at le
    lia
  · rw [Option.getD_none, thirtyYears] at le
    lia

end Clock

/-! ## Trials -/

/-- A batch of a sweep: for which point, when it is started, and the place before that. -/
structure Trial (σ : Type) where
  point : ExperimentRun
  start : Instant
  place : σ

namespace Trial

variable (t : Trial σ) (l : ClientLaunch) (h : Host σ) (pacing : Pacing)

def commands : List Command := l.commandsFor t.point.target

def workers : List Worker := h.batchWorkers t.start t.place (t.commands l)

def after : σ := (h.startAll t.start t.place (t.commands l)).1

def span? : Option Nat := pacing.span? (t.workers l h)

/-- When the pause behind the batch is over. -/
def until? : Option Instant := (t.span? l h pacing).map fun length => Clock.pauseEnd (t.start + length) pacing.settle

def OverBefore (b : Trial σ) : Prop := ∃ time, t.until? l h pacing = some time ∧ time ≤ b.start

theorem started_of_mem_workers : ∀ w ∈ t.workers l h, w.started = t.start :=
  fun _ => h.started_of_mem_batchWorkers t.start

variable {t l h pacing}

theorem le_of_until? {time : Instant} (hu : t.until? l h pacing = some time) : t.start ≤ time := by
  obtain ⟨length, -, rfl⟩ := Option.map_eq_some_iff.mp hu
  exact Nat.le_trans (Nat.le_add_right _ _) (Clock.le_pauseEnd _ _)

theorem OverBefore.trans {a b c : Trial σ} (hab : a.OverBefore l h pacing b) (hbc : b.OverBefore l h pacing c) :
    a.OverBefore l h pacing c := by
  obtain ⟨time, ha, le⟩ := hab
  obtain ⟨time', hb, le'⟩ := hbc
  exact ⟨time, ha, Nat.le_trans le (Nat.le_trans (le_of_until? hb) le')⟩

theorem instant_of_until? {time : Instant} (hu : t.until? l h pacing = some time) (le : time ≤ t.start) :
    t.span? l h pacing = some 0 ∧ pacing.settle = 0 := by
  obtain ⟨length, hs, rfl⟩ := Option.map_eq_some_iff.mp hu
  have hle := Clock.le_pauseEnd (t.start + length) pacing.settle
  obtain rfl : length = 0 := by lia
  exact ⟨hs, Clock.eq_zero_of_pauseEnd_le le⟩

end Trial

/-! ## The timetable -/

/-- The batches of a sweep and when it is over, if it ever is. -/
structure Timetable (σ : Type) where
  trials : List (Trial σ)
  back : Option Instant

def Timetable.behind (earlier : List (Trial σ)) (table : Timetable σ) : Timetable σ :=
  { table with trials := earlier ++ table.trials }

theorem Timetable.behind_behind (a b : List (Trial σ)) (table : Timetable σ) :
    (table.behind b).behind a = table.behind (a ++ b) := by
  simp only [behind, List.append_assoc]

namespace ClientLaunch

variable (l : ClientLaunch) (h : Host σ) (pacing : Pacing)

/-- The timetable of some points from an instant on. -/
def timetable : List ExperimentRun → Instant → σ → Timetable σ
  | [], now, _ => ⟨[], some now⟩
  | r :: points, now, place =>
    let t : Trial σ := ⟨r, now, place⟩
    match t.until? l h pacing with
    | none => ⟨[t], none⟩
    | some time => (timetable points time (t.after l h)).behind [t]

def following (t : Trial σ) (points : List ExperimentRun) : Timetable σ :=
  match t.until? l h pacing with
  | none => ⟨[], none⟩
  | some time => l.timetable h pacing points time (t.after l h)

theorem timetable_cons (r : ExperimentRun) (points : List ExperimentRun) (now : Instant) (place : σ) :
    l.timetable h pacing (r :: points) now place =
      (l.following h pacing ⟨r, now, place⟩ points).behind [⟨r, now, place⟩] := by
  simp only [timetable, following]
  cases (⟨r, now, place⟩ : Trial σ).until? l h pacing <;> rfl

variable {l h pacing} {points : List ExperimentRun} {now : Instant} {place : σ}

/-- All that is behind the next batch: nothing, if it is waited for in vain, or else what
    starts when the pause behind it is over. -/
theorem timetable_cases (r : ExperimentRun) (points : List ExperimentRun) :
    let t : Trial σ := ⟨r, now, place⟩
    (t.until? l h pacing = none ∧ l.timetable h pacing (r :: points) now place = ⟨[t], none⟩) ∨
      ∃ time, t.until? l h pacing = some time ∧ l.timetable h pacing (r :: points) now place =
        (l.timetable h pacing points time (t.after l h)).behind [t] := by
  simp only [timetable]
  cases (⟨r, now, place⟩ : Trial σ).until? l h pacing with
  | none => exact .inl ⟨rfl, rfl⟩
  | some time => exact .inr ⟨time, rfl, rfl⟩

theorem timetable_head : ∀ t ∈ (l.timetable h pacing points now place).trials.head?, t.start = now := by
  cases points with
  | nil => simp [timetable]
  | cons r points =>
    rw [timetable_cons, Timetable.behind]
    simp

theorem timetable_isChain :
    (l.timetable h pacing points now place).trials.IsChain fun a b => a.until? l h pacing = some b.start := by
  induction points generalizing now place with
  | nil => exact .nil
  | cons r points ih =>
    rcases timetable_cases r points with ⟨-, htable⟩ | ⟨time, htime, htable⟩ <;> rw [htable]
    · exact .singleton _
    · refine List.isChain_cons.mpr ⟨fun t ht => ?_, ih⟩
      rw [timetable_head t ht, htime]

theorem timetable_back : ∀ t ∈ (l.timetable h pacing points now place).trials.getLast?,
    (l.timetable h pacing points now place).back = t.until? l h pacing := by
  induction points generalizing now place with
  | nil => simp [timetable]
  | cons r points ih =>
    rcases timetable_cases r points with ⟨hnone, htable⟩ | ⟨time, htime, htable⟩ <;> rw [htable]
    · rintro t ⟨⟩
      exact hnone.symm
    · intro t ht
      rw [Timetable.behind, List.getLast?_append] at ht
      cases points with
      | nil =>
        obtain rfl : _ = t := by simpa [timetable] using ht
        exact htime.symm
      | cons r' points =>
        refine ih t ?_
        rw [timetable_cons, Timetable.behind] at ht ⊢
        simpa [List.getLast?_cons] using ht

theorem timetable_points (back : (l.timetable h pacing points now place).back.isSome) :
    (l.timetable h pacing points now place).trials.map (·.point) = points := by
  induction points generalizing now place with
  | nil => rfl
  | cons r points ih =>
    rcases timetable_cases r points with ⟨-, htable⟩ | ⟨time, -, htable⟩ <;> rw [htable] at back ⊢
    · cases back
    · exact congrArg (r :: ·) (ih back)

theorem span?_isSome_of_back (back : (l.timetable h pacing points now place).back.isSome) :
    ∀ t ∈ (l.timetable h pacing points now place).trials, (t.span? l h pacing).isSome := by
  induction points generalizing now place with
  | nil => simp [timetable]
  | cons r points ih =>
    rcases timetable_cases r points with ⟨-, htable⟩ | ⟨time, htime, htable⟩ <;> rw [htable] at back ⊢
    · cases back
    · refine List.forall_mem_cons.mpr ⟨?_, ih back⟩
      obtain ⟨length, hs, -⟩ := Option.map_eq_some_iff.mp htime
      rw [hs]
      rfl

/-- As long as the clock holds the pauses, the length of a sweep is the sum of its spans and
    its pauses. -/
theorem timetable_back_sum {back : Instant}
    (held : ∀ t ∈ (l.timetable h pacing points now place).trials, ∀ length ∈ t.span? l h pacing,
      t.start + length + pacing.settle < Clock.horizon)
    (hback : (l.timetable h pacing points now place).back = some back) :
    back = now + ((l.timetable h pacing points now place).trials.map fun t =>
      (t.span? l h pacing).getD 0 + pacing.settle).sum := by
  induction points generalizing now place with
  | nil => exact (Option.some.inj hback).symm
  | cons r points ih =>
    rcases timetable_cases r points with ⟨-, htable⟩ | ⟨time, htime, htable⟩ <;> rw [htable] at held hback ⊢
    · cases hback
    · obtain ⟨length, hspan, rfl⟩ := Option.map_eq_some_iff.mp htime
      rw [Clock.pauseEnd_eq (held _ List.mem_cons_self length hspan)] at held hback ⊢
      have hrest := ih (fun t ht => held t (List.mem_cons_of_mem _ ht)) hback
      simp only [Timetable.behind, List.cons_append, List.nil_append, List.map_cons, List.sum_cons, hspan,
        Option.getD_some]
      lia

theorem timetable_pairwise :
    (l.timetable h pacing points now place).trials.Pairwise fun a b => a.OverBefore l h pacing b := by
  have : Trans (fun a b : Trial σ => a.OverBefore l h pacing b) (fun a b => a.OverBefore l h pacing b)
      (fun a b => a.OverBefore l h pacing b) := ⟨Trial.OverBefore.trans⟩
  exact (timetable_isChain.imp fun a b hab => (⟨b.start, hab, Nat.le_refl _⟩ : a.OverBefore l h pacing b)).pairwise

end ClientLaunch

end Fleet

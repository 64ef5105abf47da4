/-
  Fleet.Proofs.Run.Watching — who sees a worker end, once its batch is over.

  A batch has a watcher for each of its workers, and its watchers are in a group. Dropping a
  group aborts who is in it, and the end of a worker whose watcher was aborted is seen by
  nobody; detaching the group first leaves it empty, and its watchers to themselves. A batch
  that returns detaches its group and then drops it (`Bout.watch`), whatever made it return.
  `watchersOf_eq`: so no watcher of such a batch is ever aborted, by its own batch or by a
  later one. `a_group_dropped_whole_stops_its_workers`: without detaching, they would be.

  `Session.ended` knows nothing of watchers, but lists what they see. `filter_endedDuring`:
  what ended in the course of each request, put together, has every worker that ended once,
  with the instant at which it did.
-/

import Fleet.Proofs.Run.Serving

namespace Fleet

variable {σ : Type}

/-! ## Watchers -/

/-- Who waits for a worker to end, and since when no more, if he was aborted. -/
structure Watcher where
  worker : Worker
  aborted : Option Instant := none
  deriving DecidableEq, Repr

def Worker.finish? (w : Worker) : Option Instant :=
  match w.fate with
  | .never | .ends _ .lost => none
  | .ends time _ => some time

namespace Watcher

def sees? (watcher : Watcher) : Option Instant :=
  watcher.worker.finish?.filter fun time => watcher.aborted.all (time < ·)

def abort (now : Instant) (watcher : Watcher) : Watcher := { watcher with aborted := some (watcher.aborted.getD now) }

end Watcher

/-- A group of watchers, by their numbers among all that were ever started. -/
structure Group where
  members : List Nat := []

namespace Group

/-- Nobody leaves the group but by name: it is empty, and its watchers go on. -/
def detachAll (_ : Group) : Group := {}

/-- Whoever is still in the group is aborted. -/
def drop (group : Group) (now : Instant) (watchers : List Watcher) : List Watcher :=
  watchers.mapIdx fun number watcher => if number ∈ group.members then watcher.abort now else watcher

def watchAll (group : Group) (watchers : List Watcher) : List Worker → List Watcher × Group
  | [] => (watchers, group)
  | w :: rest => watchAll ⟨group.members ++ [watchers.length]⟩ (watchers ++ [⟨w, none⟩]) rest

theorem watchAll_eq (group : Group) (watchers : List Watcher) (ws : List Worker) :
    group.watchAll watchers ws = (watchers ++ ws.map (⟨·, none⟩),
      ⟨group.members ++ List.range' watchers.length ws.length⟩) := by
  induction ws generalizing group watchers with
  | nil => simp [watchAll]
  | cons w rest ih =>
    rw [watchAll, ih, List.length_append, List.length_singleton]
    simp [List.range'_succ]

theorem getElem?_drop (group : Group) (now : Instant) (watchers : List Watcher) (n : Nat) :
    (group.drop now watchers)[n]? =
      watchers[n]?.map fun watcher => if n ∈ group.members then watcher.abort now else watcher :=
  List.getElem?_mapIdx

theorem drop_detachAll (group : Group) (now : Instant) (watchers : List Watcher) :
    group.detachAll.drop now watchers = watchers := by
  refine List.ext_getElem? fun n => ?_
  rw [getElem?_drop]
  simp [detachAll]

theorem drop_append (now : Instant) (watchers : List Watcher) (ws : List Worker) :
    drop ⟨List.range' watchers.length ws.length⟩ now (watchers ++ ws.map (⟨·, none⟩)) =
      watchers ++ ws.map (⟨·, some now⟩) := by
  refine List.ext_getElem? fun n => ?_
  rw [getElem?_drop]
  simp only [List.mem_range'_1]
  by_cases earlier : n < watchers.length
  · rw [List.getElem?_append_left earlier, List.getElem?_append_left earlier]
    have outside : ¬(watchers.length ≤ n ∧ n < watchers.length + ws.length) := by omega
    simp [outside]
  · have later := Nat.le_of_not_lt earlier
    rw [List.getElem?_append_right later, List.getElem?_append_right later, List.getElem?_map, List.getElem?_map]
    by_cases inside : n - watchers.length < ws.length
    · have member : watchers.length ≤ n ∧ n < watchers.length + ws.length := by omega
      simp only [List.getElem?_eq_getElem inside, Option.map_some, if_pos member]
      rfl
    · rw [List.getElem?_eq_none (Nat.le_of_not_lt inside)]
      rfl

end Group

/-! ## Batches -/

namespace Bout

variable (b : Bout σ)

/-- A batch and its watchers. When it returns it detaches its group and drops it. If there is
    no deadline to be had it is thrown out of its course, and the group is dropped whole. -/
def watch (watchers : List Watcher) : List Watcher :=
  let (watchers, group) := Group.watchAll {} watchers b.workers
  match b.ran.result with
  | .ok _ => group.detachAll.drop b.ran.clock watchers
  | .error .clockOverflow => group.drop b.ran.clock watchers
  | .error .endless => watchers

def aborted : Option Instant :=
  match b.ran.result with
  | .error .clockOverflow => some b.ran.clock
  | .ok _ | .error .endless => none

/-- A batch does nothing to the watchers of earlier ones. -/
theorem watch_eq (watchers : List Watcher) : b.watch watchers = watchers ++ b.workers.map (⟨·, b.aborted⟩) := by
  unfold watch aborted
  rw [Group.watchAll_eq]
  cases b.ran.result with
  | ok s => exact Group.drop_detachAll _ _ _
  | error halt =>
    cases halt with
    | clockOverflow => exact Group.drop_append _ _ _
    | endless => rfl

def watchWhole (watchers : List Watcher) : List Watcher :=
  let (watchers, group) := Group.watchAll {} watchers b.workers
  group.drop b.ran.clock watchers

/-- The end of a worker that its batch leaves running is seen because the group is detached:
    without that, it would be seen by nobody. -/
theorem a_group_dropped_whole_stops_its_workers (returned : b.aborted = none) (watchers : List Watcher) {i : Nat}
    {w : Worker} (hw : b.workers[i]? = some w) {time : Instant} (ends : w.finish? = some time)
    (late : b.ran.clock ≤ time) :
    (b.watch watchers)[watchers.length + i]?.bind Watcher.sees? = some time ∧
      (b.watchWhole watchers)[watchers.length + i]?.bind Watcher.sees? = none := by
  have whole : b.watchWhole watchers = watchers ++ b.workers.map (⟨·, some b.ran.clock⟩) := by
    unfold watchWhole
    rw [Group.watchAll_eq]
    exact Group.drop_append _ _ _
  have there (aborted : Option Instant) :
      (watchers ++ b.workers.map (⟨·, aborted⟩))[watchers.length + i]? = some ⟨w, aborted⟩ := by
    rw [List.getElem?_append_right (Nat.le_add_right _ _), Nat.add_sub_cancel_left, List.getElem?_map, hw]
    rfl
  rw [b.watch_eq, whole, there, there, returned]
  simp [Watcher.sees?, ends, late]

end Bout

def watchersOf (bouts : List (Bout σ)) : List Watcher := bouts.foldl (fun watchers b => b.watch watchers) []

/-- No watcher is aborted but by a batch of his own that has no deadline to be had. -/
theorem watchersOf_eq (bouts : List (Bout σ)) :
    watchersOf bouts = bouts.flatMap fun b => b.workers.map (⟨·, b.aborted⟩) := by
  have all (watchers : List Watcher) : bouts.foldl (fun watchers b => b.watch watchers) watchers =
      watchers ++ bouts.flatMap fun b => b.workers.map (⟨·, b.aborted⟩) := by
    induction bouts generalizing watchers with
    | nil => exact (List.append_nil _).symm
    | cons b rest ih => rw [List.foldl_cons, ih, b.watch_eq, List.append_assoc, List.flatMap_cons]
  exact all []

/-! ## Ends -/

def endsFrom {α : Type} (when? : α → Option Instant) (clock : Instant) (k : Nat) (xs : List α) :
    List (Nat × Instant) :=
  (xs.zipIdx k).filterMap fun (x, number) => ((when? x).filter (· ≤ clock)).map (number, ·)

/-- What the watchers have seen by an instant: the number of each worker that has ended, and
    when it did. -/
def endsOf (clock : Instant) (watchers : List Watcher) : List (Nat × Instant) :=
  endsFrom Watcher.sees? clock 0 watchers

section Ends

variable {α : Type} {when? : α → Option Instant} {clock : Instant}

theorem le_of_mem_endsFrom {k : Nat} {xs : List α} : ∀ e ∈ endsFrom when? clock k xs, k ≤ e.1 := by
  intro e he
  obtain ⟨⟨x, number⟩, hx, he⟩ := List.mem_filterMap.mp he
  obtain ⟨time, -, rfl⟩ := Option.map_eq_some_iff.mp he
  exact (List.mem_zipIdx hx).1

theorem filter_endsFrom (k i : Nat) (xs : List α) : (endsFrom when? clock k xs).filter (·.1 == k + i) =
    (((xs[i]?.bind when?).filter (· ≤ clock)).map (k + i, ·)).toList := by
  induction xs generalizing k i with
  | nil => rfl
  | cons x rest ih =>
    have step : endsFrom when? clock k (x :: rest) =
        (((when? x).filter (· ≤ clock)).map (k, ·)).toList ++ endsFrom when? clock (k + 1) rest := by
      simp only [endsFrom, List.zipIdx_cons, List.filterMap_cons]
      cases ((when? x).filter (· ≤ clock)).map (k, ·) <;> rfl
    rw [step, List.filter_append]
    cases i with
    | zero =>
      have later : (endsFrom when? clock (k + 1) rest).filter (·.1 == k + 0) = [] := by
        refine List.filter_eq_nil_iff.mpr fun e he => ?_
        have := le_of_mem_endsFrom e he
        rw [beq_iff_eq]
        omega
      rw [later, List.append_nil, List.getElem?_cons_zero, Option.bind_some]
      cases (when? x).filter (· ≤ clock) <;> simp
    | succ i =>
      have earlier : (((when? x).filter (· ≤ clock)).map (k, ·)).toList.filter (·.1 == k + (i + 1)) = [] := by
        cases (when? x).filter (· ≤ clock) <;> simp
      have shift : k + (i + 1) = k + 1 + i := by omega
      rw [earlier, List.nil_append, List.getElem?_cons_succ, shift]
      exact ih (k + 1) i

theorem filter_endsFrom_zero (n : Nat) (xs : List α) : (endsFrom when? clock 0 xs).filter (·.1 == n) =
    (((xs[n]?.bind when?).filter (· ≤ clock)).map (n, ·)).toList := by
  have h := @filter_endsFrom α when? clock 0 n xs
  rwa [Nat.zero_add] at h

end Ends

namespace Session

variable (s : Session σ)

theorem ended_eq : s.ended = endsFrom Worker.finish? s.clock 0 s.workers := by
  unfold ended endsFrom
  congr 1
  funext ⟨w, number⟩
  cases hw : w.fate with
  | never => simp only [Worker.finish?, hw]; rfl
  | ends time ending =>
    by_cases le : time ≤ s.clock
    · cases ending <;> simp [Worker.finish?, hw, le, Option.filter_some]
    · cases ending <;> simp [Worker.finish?, hw, le, Option.filter_some]

def end? (n : Nat) : Option Instant := (s.workers[n]?.bind Worker.finish?).filter (· ≤ s.clock)

theorem filter_ended (n : Nat) : s.ended.filter (·.1 == n) = ((s.end? n).map (n, ·)).toList := by
  rw [s.ended_eq, filter_endsFrom_zero, end?]

def endedSince (later : Session σ) : List (Nat × Instant) := later.ended.filter (· ∉ s.ended)

def endedDuring (s : Session σ) : List (Served σ) → List (Nat × Instant)
  | [] => []
  | served :: rest => s.endedSince served.after ++ endedDuring served.after rest

structure Onward (later : Session σ) : Prop where
  le : s.clock ≤ later.clock
  workers : ∃ more, later.workers = s.workers ++ more

variable {s}

theorem Onward.end? {later : Session σ} (onward : s.Onward later) {n : Nat} {time : Instant}
    (h : s.end? n = some time) : later.end? n = some time := by
  obtain ⟨more, workers⟩ := onward.workers
  obtain ⟨finish, le⟩ := Option.filter_eq_some_iff.mp h
  obtain ⟨w, hw, hend⟩ := Option.bind_eq_some_iff.mp finish
  have there : later.workers[n]? = some w := by
    rw [workers, List.getElem?_append_left (List.getElem?_eq_some_iff.mp hw).1, hw]
  have le : time ≤ later.clock := Nat.le_trans (of_decide_eq_true le) onward.le
  rw [Session.end?, there, Option.bind_some, hend]
  simp [le]

theorem Onward.filter_ended {later : Session σ} (onward : s.Onward later) (n : Nat) :
    s.ended.filter (·.1 == n) ++ (s.endedSince later).filter (·.1 == n) = later.ended.filter (·.1 == n) := by
  have swap : (s.endedSince later).filter (·.1 == n) = (later.ended.filter (·.1 == n)).filter (· ∉ s.ended) := by
    rw [endedSince, List.filter_filter, List.filter_filter]
    simp only [Bool.and_comm]
  rw [swap]
  cases h : s.end? n with
  | some time =>
    have there : (n, time) ∈ s.ended := by
      have mem : (n, time) ∈ s.ended.filter (·.1 == n) := by rw [s.filter_ended, h]; simp
      exact (List.mem_filter.mp mem).1
    rw [s.filter_ended, h, later.filter_ended, onward.end? h]
    simp [there]
  | none =>
    have absent : s.ended.filter (·.1 == n) = [] := by rw [s.filter_ended, h]; rfl
    rw [absent, List.nil_append, List.filter_eq_self.mpr]
    intro e he
    refine decide_eq_true fun mem => ?_
    exact absurd (List.filter_eq_nil_iff.mp absent e mem) (by simpa using (List.mem_filter.mp he).2)

variable (s)

theorem serve_onward (forward : s.host.Forward) (r : Request) : s.Onward (s.serve r).after := by
  obtain ⟨course, workers⟩ := s.serve_course r
  exact ⟨course.le forward, _, workers⟩

/-- Over the requests of a session, every worker that has ended by their end, and had not
    before, ends once, and at the instant at which it then has. -/
theorem filter_endedDuring (forward : s.host.Forward) (requests : List Request) (n : Nat) :
    s.ended.filter (·.1 == n) ++ (s.endedDuring (s.serveAll requests)).filter (·.1 == n) =
      (s.afterAll (s.serveAll requests)).ended.filter (·.1 == n) := by
  induction requests generalizing s with
  | nil => exact List.append_nil _
  | cons r rest ih =>
    obtain ⟨host, -⟩ := s.serve_after r
    simp only [serveAll, endedDuring, afterAll]
    rw [List.filter_append, ← List.append_assoc, (s.serve_onward forward r).filter_ended]
    cases (s.serve r).result with
    | error halt => exact List.append_nil _
    | ok answer => exact ih (s.serve r).after (host ▸ forward)

end Session

end Fleet

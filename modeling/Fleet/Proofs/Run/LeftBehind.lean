/-
  Fleet.Proofs.Run.LeftBehind — workers that a batch leaves behind are neither stopped nor
  counted again.

  A scripted worker is known by its number among all that a session starts: `Host.part` is
  what it is to do. The number of a batch's first worker is the place it was started in
  (`Course.getElem?_flatMap`), so what a session, its watchers and its script say of one
  worker can be put side by side.

  `left_behind_neither_stopped_nor_counted`: whatever a session is asked for, every worker
  ends when its script says, once, whatever became of its batch before; a batch counts
  workers of its own; and what a worker does after its batch has returned shows in nothing
  that the session does.
-/

import Fleet.Proofs.Run.Varying
import Fleet.Proofs.Run.Watching

namespace Fleet

/-! ## Scripts -/

namespace Host

def Part.fate (p : Part) (now : Instant) : Fate :=
  match p.ending with
  | some ending => .ends (now + p.length) ending
  | none => .never

/-- The part of a worker, by its number; without a script it never ends. -/
def part (script : List Part) (number : Nat) : Part := script[number % script.length]?.getD ⟨0, none⟩

variable {script : List Part}

theorem start_scripted (number : Nat) (now : Instant) (c : Command) :
    (scripted script).start number now c = (number + 1, { fate := (part script number).fate now }) := by
  simp only [scripted, part]
  rcases script[number % script.length]? with _ | ⟨length, _ | ending⟩ <;> rfl

theorem place_scripted (now : Instant) (number : Nat) (commands : List Command) :
    ((scripted script).startAll now number commands).1 = number + commands.length := by
  induction commands generalizing number with
  | nil => rfl
  | cons c rest ih =>
    simp only [startAll, start_scripted, ih, List.length_cons]
    omega

theorem getElem?_workers_scripted (now : Instant) (number : Nat) (commands : List Command) (i : Nat) :
    ((scripted script).batchWorkers now number commands)[i]? =
      commands[i]?.map fun c => ⟨c.slot, now, (part script (number + i)).fate now⟩ := by
  induction commands generalizing number i with
  | nil => rfl
  | cons c rest ih =>
    rw [batchWorkers_cons, start_scripted]
    cases i with
    | zero => rfl
    | succ i =>
      have shift : number + (i + 1) = number + 1 + i := by omega
      rw [List.getElem?_cons_succ, List.getElem?_cons_succ, ih, shift]

/-- Two scripts make hosts that differ in nothing but what becomes of workers. -/
theorem scripted_alike (script script' : List Part) : (scripted script).Alike (scripted script') where
  place := fun _ _ _ => by rw [start_scripted, start_scripted]
  events := fun _ _ _ => by rw [start_scripted, start_scripted]
  asked := fun _ => rfl

end Host

namespace Course

open Host

variable {script : List Part} {pacing : Pacing} {now clock : Instant} {place last : Nat} {bouts : List (Bout Nat)}

theorem workers_eq (course : Course (scripted script) pacing now place bouts clock last) :
    ∀ b ∈ bouts, b.workers = (scripted script).batchWorkers b.now b.place b.commands := by
  intro b hb
  obtain ⟨raised, h⟩ := course.exists_raised b hb
  rw [h, workers_bout]
  rfl

/-- What each batch has one of for each of its commands is numbered through from the place
    at which the course begins. -/
theorem getElem?_flatMap {α : Type} (course : Course (scripted script) pacing now place bouts clock last)
    {each : Bout Nat → List α} (length : ∀ b ∈ bouts, (each b).length = b.commands.length) :
    ∀ b ∈ bouts, place ≤ b.place ∧
      ∀ i < b.commands.length, (bouts.flatMap each)[b.place - place + i]? = (each b)[i]? := by
  induction course with
  | wait => exact nofun
  | @bout now start clock place last bouts raised commands _ _ ih =>
    obtain ⟨first, rest⟩ := List.forall_mem_cons.mp length
    have next : ((scripted script).bout pacing raised start place commands).ran.place = place + commands.length := by
      rw [Host.bout, batch_place, place_scripted]
    refine List.forall_mem_cons.mpr ⟨⟨Nat.le_refl _, fun i hi => ?_⟩, fun b hb => ?_⟩
    · have zero : ((scripted script).bout pacing raised start place commands).place - place + i = i := by
        rw [Host.bout, Nat.sub_self, Nat.zero_add]
      rw [List.flatMap_cons, zero, List.getElem?_append_left (by rw [first]; exact hi)]
    · obtain ⟨le, all⟩ := ih rest b hb
      rw [next] at le all
      refine ⟨Nat.le_trans (Nat.le_add_right _ _) le, fun i hi => ?_⟩
      have behind : b.place - place + i = commands.length + (b.place - (place + commands.length) + i) := by omega
      rw [List.flatMap_cons, behind, List.getElem?_append_right (by rw [first]; exact Nat.le_add_right _ _), first]
      rw [show ((scripted script).bout pacing raised start place commands).commands = commands from rfl,
        Nat.add_sub_cancel_left]
      exact all i hi

end Course

/-! ## Sessions -/

def Session.scripted (script : List Host.Part) (pacing : Pacing) : Session Nat where
  host := Host.scripted script
  pacing
  place := 0

/-- A batch has returned, and left a worker of it with this part to itself. -/
def Host.Part.Outlasts (p : Part) (b : Bout Nat) : Prop :=
  ∃ summary, b.ran.result = .ok summary ∧
    ∀ ending, p.ending = some ending → summary.leavesFrom b.ran.clock ≤ b.now + p.length

theorem Host.Part.Outlasts.leaves {p : Part} {b : Bout Nat} (h : p.Outlasts b) (slot : UInt32) :
    b.Leaves ⟨slot, b.now, p.fate b.now⟩ := by
  obtain ⟨summary, hok, late⟩ := h
  refine ⟨summary, hok, fun time ends => ?_⟩
  cases hp : p.ending with
  | none =>
    simp only [Worker.endTime?, fate, hp] at ends
    cases ends
  | some ending =>
    simp only [Worker.endTime?, fate, hp] at ends
    cases ends
    exact late ending hp

namespace Session

open Host

variable (script : List Part) (pacing : Pacing) (requests : List Request)

/-- A worker of a batch is known by its number, to the session, to its watcher and to the
    script. -/
theorem worker_of_bout :
    let served := (Session.scripted script pacing).serveAll requests
    ∀ b ∈ boutsOf served, ∀ i < b.commands.length, ∃ w : Worker,
      w.started = b.now ∧ w.fate = (part script (b.place + i)).fate b.now ∧
      ((Session.scripted script pacing).afterAll served).workers[b.place + i]? = some w ∧
      (watchersOf (boutsOf served))[b.place + i]? = some ⟨w, b.aborted⟩ := by
  intro served b hb i hi
  obtain ⟨course, workers⟩ := (Session.scripted script pacing).serveAll_course requests
  have own : ∀ b ∈ boutsOf served, b.workers = (Host.scripted script).batchWorkers b.now b.place b.commands :=
    course.workers_eq
  have length : ∀ b ∈ boutsOf served, b.workers.length = b.commands.length := by
    intro b hb
    rw [own b hb, length_batchWorkers]
  have hw : b.workers[i]? = some ⟨b.commands[i].slot, b.now, (part script (b.place + i)).fate b.now⟩ := by
    rw [own b hb, getElem?_workers_scripted, List.getElem?_eq_getElem hi]
    rfl
  have number : b.place - (Session.scripted script pacing).place + i = b.place + i := rfl
  refine ⟨⟨b.commands[i].slot, b.now, (part script (b.place + i)).fate b.now⟩, rfl, rfl, ?_, ?_⟩
  · obtain ⟨-, there⟩ := course.getElem?_flatMap length b hb
    have at_number := there i hi
    rw [number, hw] at at_number
    rw [workers]
    exact at_number
  · have watched : ∀ b ∈ boutsOf served,
        (b.workers.map (⟨·, b.aborted⟩ : Worker → Watcher)).length = b.commands.length := by
      intro b hb
      rw [List.length_map, length b hb]
    obtain ⟨-, there⟩ := course.getElem?_flatMap watched b hb
    have at_number := there i hi
    rw [number, List.getElem?_map, hw] at at_number
    rw [watchersOf_eq]
    exact at_number

theorem ends_of_part {b : Bout Nat} (hb : b ∈ boutsOf ((Session.scripted script pacing).serveAll requests))
    (kept : b.aborted = none) {i : Nat} (hi : i < b.commands.length) {ending : Ending}
    (hpart : (part script (b.place + i)).ending = some ending) (found : ending ≠ .lost) :
    let s := Session.scripted script pacing
    let last := s.afterAll (s.serveAll requests)
    let time := b.now + (part script (b.place + i)).length
    time ≤ last.clock →
      (endsOf last.clock (watchersOf (boutsOf (s.serveAll requests)))).filter (·.1 == b.place + i) =
          [(b.place + i, time)] ∧
        (s.endedDuring (s.serveAll requests)).filter (·.1 == b.place + i) = [(b.place + i, time)] := by
  intro s last time le
  obtain ⟨w, -, hfate, hw, watcher⟩ := worker_of_bout script pacing requests b hb i hi
  have finish : w.finish? = some time := by
    rw [Worker.finish?, hfate, Part.fate, hpart]
    cases ending with
    | lost => exact absurd rfl found
    | exited code => rfl
    | notStarted error => rfl
  constructor
  · rw [endsOf, filter_endsFrom_zero, watcher, kept]
    simp [Watcher.sees?, finish, le]
  · have once := s.filter_endedDuring (scripted_forward script) requests (b.place + i)
    have fresh : s.ended = [] := rfl
    rw [fresh, List.filter_nil, List.nil_append, filter_ended, end?, hw] at once
    rw [once]
    simp [finish, le, last]

theorem varies_of_parts (script' : List Part)
    (differ : ∀ b ∈ boutsOf ((Session.scripted script pacing).serveAll requests), ∀ i < b.commands.length,
      part script' (b.place + i) = part script (b.place + i) ∨
        (part script (b.place + i)).Outlasts b ∧ (part script' (b.place + i)).Outlasts b) :
    ∀ b ∈ boutsOf ((Session.scripted script pacing).serveAll requests), b.Varies (Host.scripted script') := by
  intro b hb
  obtain ⟨course, -⟩ := (Session.scripted script pacing).serveAll_course requests
  have own : b.workers = (Host.scripted script).batchWorkers b.now b.place b.commands := course.workers_eq b hb
  rw [Bout.Varies, own, List.forall₂_iff_get]
  refine ⟨by rw [length_batchWorkers, length_batchWorkers], fun i hi hi' => ?_⟩
  rw [length_batchWorkers] at hi
  have plays (script : List Part) (h : i < ((Host.scripted script).batchWorkers b.now b.place b.commands).length) :
      ((Host.scripted script).batchWorkers b.now b.place b.commands).get ⟨i, h⟩ =
        ⟨b.commands[i].slot, b.now, (part script (b.place + i)).fate b.now⟩ := by
    have there : ((Host.scripted script).batchWorkers b.now b.place b.commands)[i]? = _ :=
      getElem?_workers_scripted b.now b.place b.commands i
    rw [List.getElem?_eq_getElem h, List.getElem?_eq_getElem hi] at there
    exact Option.some.inj there
  rw [plays script, plays script']
  rcases differ b hb i hi with same | ⟨outlasts, outlasts'⟩
  · exact .inl (by rw [same])
  · exact .inr ⟨outlasts.leaves _, outlasts'.leaves _⟩

end Session

/-- Whatever is asked of a session, in whatever order and under whatever script, its workers
    are those of its batches, numbered through as they are started. Each is watched until it
    ends, unless its batch had no deadline to be had; one that is scripted to end is seen to
    do so in time and once, by its watcher as over all requests of the session. A batch that
    returns has counted workers of its own, and an answer is made of the summaries of the
    batches of its own request. Another script that changes only parts which outlast their
    batches shows the same: the same batches at the same instants with the same workers,
    lines and summaries, the same answers and the same clock. -/
theorem left_behind_neither_stopped_nor_counted (script : List Host.Part) (pacing : Pacing) (requests : List Request) :
    let s := Session.scripted script pacing
    let served := s.serveAll requests
    let last := s.afterAll served
    last.workers = (boutsOf served).flatMap Bout.workers ∧
    (∀ b ∈ boutsOf served, b.ran.result ≠ .error .clockOverflow → ∀ i < b.commands.length,
      let n := b.place + i
      let p := Host.part script n
      (∃ w : Worker, w.started = b.now ∧ w.fate = p.fate b.now ∧ last.workers[n]? = some w ∧
        (watchersOf (boutsOf served))[n]? = some ⟨w, none⟩) ∧
      ∀ ending, p.ending = some ending → ending ≠ .lost → b.now + p.length ≤ last.clock →
        (endsOf last.clock (watchersOf (boutsOf served))).filter (·.1 == n) = [(n, b.now + p.length)] ∧
          (s.endedDuring served).filter (·.1 == n) = [(n, b.now + p.length)]) ∧
    (∀ b ∈ boutsOf served, ∀ summary, b.ran.result = .ok summary → ∃ counted left, b.Counts counted left summary) ∧
    (∀ x ∈ served, ∀ answer, x.result = .ok answer → answer.Of x.bouts) ∧
    ∀ script' : List Host.Part,
      (∀ b ∈ boutsOf served, ∀ i < b.commands.length,
        let p := Host.part script (b.place + i)
        let p' := Host.part script' (b.place + i)
        p' = p ∨ p.Outlasts b ∧ p'.Outlasts b) →
      ((Session.scripted script' pacing).serveAll requests).map Served.shown = served.map Served.shown := by
  intro s served last
  obtain ⟨course, workers⟩ := s.serveAll_course requests
  refine ⟨workers, fun b hb returns i hi => ?_, fun b hb summary hok => ?_, s.serveAll_answers requests,
    fun script' differ => ?_⟩
  · have kept : b.aborted = none := by
      cases hres : b.ran.result with
      | ok summary => rw [Bout.aborted, hres]
      | error halt =>
        cases halt with
        | clockOverflow => exact absurd hres returns
        | endless => rw [Bout.aborted, hres]
    obtain ⟨w, started, hfate, hw, watcher⟩ := Session.worker_of_bout script pacing requests b hb i hi
    rw [kept] at watcher
    refine ⟨⟨w, started, hfate, hw, watcher⟩, fun ending hpart found le => ?_⟩
    exact Session.ends_of_part script pacing requests hb kept hi hpart found le
  · obtain ⟨raised, h⟩ := course.exists_raised b hb
    rw [h] at hok ⊢
    exact (Host.bout_counts (Host.scripted_forward script) hok).2
  · have alike : s.Alike (Session.scripted script' pacing) := ⟨Host.scripted_alike script script', rfl, rfl, rfl, rfl⟩
    exact Session.serveAll_varied alike requests (Session.varies_of_parts script pacing requests script' differ)

/-- A worker that is abandoned at 15 ends at 25, while another batch runs; and that it ends
    then, and does not hang, shows in nothing that the session does. -/
theorem left_behind_ends_during_the_next_batch :
    let c : Command := ⟨.client, 0, "client", [], .inherit⟩
    let requests : List Request := [.batch [c], .batch [c], .advance 20]
    let pacing : Pacing := { timeout := some 15 }
    let ending : List Host.Part := [⟨25, some (.exited (some 0))⟩, ⟨12, some (.exited (some 0))⟩]
    let hanging : List Host.Part := [⟨0, none⟩, ⟨12, some (.exited (some 0))⟩]
    let s := Session.scripted ending pacing
    (s.endedDuring (s.serveAll requests)).filter (·.1 == 0) = [(0, 25)] ∧
      ((Session.scripted hanging pacing).serveAll requests).map Served.shown =
        (s.serveAll requests).map Served.shown := by
  intro c requests pacing ending hanging s
  obtain ⟨-, ends, -, -, same⟩ := left_behind_neither_stopped_nor_counted ending pacing requests
  let abandoned : Ran Nat BatchSummary := ⟨1, 15, (s.host.startAll 0 0 [c]).2 ++ [Event.abandoned 1].map .say,
    .ok { launched := 1, timedOut := 1 }⟩
  have first : s.host.batch s.pacing s.raised s.clock s.place [c] = abandoned := by
    refine Host.batch_of_wait (by decide) ?_
    show wait _ ([⟨0, 0, .ends 25 (.exited (some 0))⟩].mergeSort Worker.before) _ _ = _
    rw [List.mergeSort_singleton]
    rfl
  let t := s.after abandoned
  let whole : Ran Nat BatchSummary := ⟨2, 27, (s.host.startAll 15 1 [c]).2 ++ [Event.finished 0 true 0].map .say,
    .ok { launched := 1, succeeded := 1 }⟩
  have second : t.host.batch t.pacing t.raised t.clock t.place [c] = whole := by
    refine Host.batch_of_wait (by decide) ?_
    show wait _ ([⟨0, 15, .ends 27 (.exited (some 0))⟩].mergeSort Worker.before) _ _ = _
    rw [List.mergeSort_singleton]
    rfl
  have served : s.serveAll requests =
      [⟨[⟨0, 0, [c], abandoned⟩], abandoned.acts, abandoned.result.map .batch, t⟩,
        ⟨[⟨15, 1, [c], whole⟩], whole.acts, whole.result.map .batch, t.after whole⟩,
        Session.quietly ((t.after whole).advance 20)] := by
    simp only [requests, Session.serveAll]
    rw [Session.serve_batch first, Session.serve_batch second]
    rfl
  rw [served] at ends same ⊢
  constructor
  · have returns : abandoned.result ≠ .error .clockOverflow := by rintro ⟨⟩
    obtain ⟨-, once⟩ := ends _ List.mem_cons_self returns 0 (by decide)
    exact (once (.exited (some 0)) rfl (by decide) (by decide)).2
  · refine same hanging fun b hb i hi => ?_
    rcases List.mem_pair.mp hb with rfl | rfl
    · obtain rfl : i = 0 := Nat.lt_one_iff.mp hi
      refine .inr ⟨⟨_, rfl, ?_⟩, ⟨_, rfl, ?_⟩⟩
      · rintro _ ⟨⟩
        decide
      · rintro _ ⟨⟩
    · obtain rfl : i = 0 := Nat.lt_one_iff.mp hi
      exact .inl rfl

end Fleet

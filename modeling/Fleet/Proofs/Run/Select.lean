/-
  Fleet.Proofs.Run.Select — the wait of a batch as the select loop that it is: at every turn
  some branch that is ready is taken, whichever, and time passes only while none is.

  The branches are a worker that has ended, an empty batch, the shutdown flag and the
  deadline. `Step` is a turn after which the loop goes on, `Stop` one after which it does
  not; `Returns` is a whole run of the loop.

  `wait` takes the workers in the order of their ends, looks at nothing but the first cut
  and settles every tie its own way. `wait_returns`: it is a run of the loop. So what holds
  of every run of the loop holds of `wait`.
-/

import Fleet.Run.Batch
import Mathlib.Logic.Relation

namespace Fleet

/-! ## Coming and having come -/

/-- What comes at `time`, if it ever does, has come by `t`. -/
def Due (time : Option Instant) (t : Instant) : Prop := ∃ u ∈ time, u ≤ t

theorem Due.mono {time : Option Instant} {t u : Instant} (h : Due time t) (le : t ≤ u) : Due time u := by
  obtain ⟨v, hv, hle⟩ := h
  exact ⟨v, hv, Nat.le_trans hle le⟩

theorem due_iff_of_mem {time : Option Instant} {t u : Instant} (h : u ∈ time) : Due time t ↔ u ≤ t := by
  obtain rfl : time = some u := h
  constructor
  · rintro ⟨v, hv, hle⟩
    obtain rfl : u = v := Option.some.inj hv
    exact hle
  · exact fun hle => ⟨u, rfl, hle⟩

namespace Worker

theorem endTime?_of_ends {w : Worker} {time : Instant} {ending : Ending} (h : w.fate = .ends time ending) :
    w.endTime? = some time := by
  rw [endTime?, h]

theorem endTime?_of_never {w : Worker} (h : w.fate = .never) : w.endTime? = none := by
  rw [endTime?, h]

theorem before_iff {a b : Worker} : a.before b = true ↔ ∀ t ∈ b.endTime?, Due a.endTime? t := by
  unfold before
  cases ha : a.endTime? <;> cases hb : b.endTime? <;> simp [Due]

theorem before_trans (a b c : Worker) (hab : a.before b = true) (hbc : b.before c = true) : a.before c = true := by
  rw [before_iff] at *
  intro t ht
  obtain ⟨u, hu, hle⟩ := hbc t ht
  exact (hab u hu).mono hle

theorem before_total (a b : Worker) : (a.before b || b.before a) = true := by
  unfold before
  cases a.endTime? <;> cases b.endTime? <;> simp [Nat.le_total]

theorem inEndOrder_pairwise (ws : List Worker) : (inEndOrder ws).Pairwise (fun a b => a.before b = true) :=
  List.pairwise_mergeSort before_trans before_total ws

theorem inEndOrder_perm (ws : List Worker) : (inEndOrder ws).Perm ws := List.mergeSort_perm ws before

end Worker

namespace Cut

def time? (raised deadline : Option Instant) : Cut → Option Instant
  | .shutdown => raised
  | .deadline => deadline

variable {raised deadline : Option Instant}

theorem time?_of_first?_some {t : Instant} {c : Cut} (h : first? raised deadline = some (t, c)) :
    t ∈ c.time? raised deadline := by
  unfold first? at h
  cases raised <;> cases deadline <;> simp only [reduceCtorEq, Option.some.injEq, Prod.mk.injEq] at h
  · obtain ⟨rfl, rfl⟩ := h; rfl
  · obtain ⟨rfl, rfl⟩ := h; rfl
  · split at h <;> simp only [Option.some.injEq, Prod.mk.injEq] at h <;> obtain ⟨rfl, rfl⟩ := h <;> rfl

theorem first?_le {t : Instant} {c : Cut} (h : first? raised deadline = some (t, c)) (c' : Cut) :
    ∀ u ∈ c'.time? raised deadline, t ≤ u := by
  unfold first? at h
  cases raised <;> cases deadline <;> simp only [reduceCtorEq, Option.some.injEq, Prod.mk.injEq] at h
  · cases c' <;> simp [time?, h.1]
  · cases c' <;> simp [time?, h.1]
  · split at h <;> simp only [Option.some.injEq, Prod.mk.injEq] at h <;> cases c' <;> simp [time?] <;> lia

theorem exists_first? (c : Cut) {u : Instant} (h : u ∈ c.time? raised deadline) :
    ∃ t c', first? raised deadline = some (t, c') := by
  unfold first?
  cases raised <;> cases deadline <;> cases c <;> simp_all [time?]
  all_goals split <;> simp

theorem lt_of_lt_first? {time : Instant} (before : ∀ t c, first? raised deadline = some (t, c) → time < t) (c : Cut) :
    ∀ u ∈ c.time? raised deadline, time < u := by
  intro u hu
  obtain ⟨t, c', h⟩ := exists_first? c hu
  exact Nat.lt_of_lt_of_le (before t c' h) (first?_le h c u hu)

end Cut

/-! ## The loop -/

structure Waiting where
  now : Instant
  left : List Worker
  summary : BatchSummary
  said : List Event

namespace Select

variable (raised deadline : Option Instant)

def Ready (left : List Worker) (t : Instant) : Prop :=
  left = [] ∨ (∃ w ∈ left, Due w.endTime? t) ∨ ∃ c : Cut, Due (c.time? raised deadline) t

inductive Step : Waiting → Waiting → Prop
  /-- No branch is ready before `t`, and one is at `t`. -/
  | pass (s : Waiting) (t : Instant) : s.now < t → (∀ u, s.now ≤ u → u < t → ¬Ready raised deadline s.left u) →
      Ready raised deadline s.left t → Step s { s with now := t }
  | join (s : Waiting) (w : Worker) (rest : List Worker) (time : Instant) (ending : Ending) :
      s.left.Perm (w :: rest) → w.fate = .ends time ending → time ≤ s.now →
      Step s ⟨s.now, rest, s.summary.record ending, s.said ++ w.farewell rest.length ending⟩

inductive Stop : Waiting → BatchSummary → List Event → Prop
  | done (s : Waiting) : s.left = [] → Stop s s.summary s.said
  | cut (s : Waiting) (c : Cut) : Due (c.time? raised deadline) s.now →
      Stop s (c.close s.left.length s.summary).2 (s.said ++ [(c.close s.left.length s.summary).1])

/-- The loop can go from `s` to an end at `clock`, with a summary and what was said. -/
def Returns (s : Waiting) (clock : Instant) (summary : BatchSummary) (said : List Event) : Prop :=
  ∃ s', Relation.ReflTransGen (Step raised deadline) s s' ∧ s'.now = clock ∧ Stop raised deadline s' summary said

/-- Whatever the loop takes up from `s` on, it ends: no run is endless, and none is stuck. -/
structure Terminates (s : Waiting) : Prop where
  acc : Acc (flip (Step raised deadline)) s
  returns : ∀ s', Relation.ReflTransGen (Step raised deadline) s s' →
    ∃ clock summary said, Returns raised deadline s' clock summary said

variable {raised deadline}

theorem Returns.head {s s' : Waiting} {clock : Instant} {summary : BatchSummary} {said : List Event}
    (steps : Relation.ReflTransGen (Step raised deadline) s s') (h : Returns raised deadline s' clock summary said) :
    Returns raised deadline s clock summary said := by
  obtain ⟨last, more, hclock, stop⟩ := h
  exact ⟨last, steps.trans more, hclock, stop⟩

theorem not_ready_of_lt {left : List Worker} {t u : Instant} (nonempty : left ≠ [])
    (workers : ∀ w ∈ left, ∀ v ∈ w.endTime?, t ≤ v) (cuts : ∀ c : Cut, ∀ v ∈ c.time? raised deadline, t ≤ v)
    (lt : u < t) : ¬Ready raised deadline left u := by
  rintro (h | ⟨w, hw, v, hv, hle⟩ | ⟨c, v, hv, hle⟩)
  · exact nonempty h
  · have := workers w hw v hv; lia
  · have := cuts c v hv; lia

theorem pass_to {s : Waiting} {t : Instant} (le : s.now ≤ t)
    (quiet : ∀ u, s.now ≤ u → u < t → ¬Ready raised deadline s.left u) (ready : Ready raised deadline s.left t) :
    Relation.ReflTransGen (Step raised deadline) s { s with now := t } := by
  rcases Nat.lt_or_eq_of_le le with lt | rfl
  · exact .single (.pass s t lt quiet ready)
  · exact .refl

/-- No run is endless: time passes only between two joins. -/
theorem acc_step (s : Waiting) : Acc (flip (Step raised deadline)) s := by
  induction hn : s.left.length using Nat.strongRecOn generalizing s with
  | ind n ih =>
    have joined {s s' : Waiting} (hs : s.left.length = n) {w : Worker} {rest : List Worker}
        (perm : s.left.Perm (w :: rest)) (hl : s'.left = rest) : Acc (flip (Step raised deadline)) s' := by
      have length : s.left.length = rest.length + 1 := perm.length_eq
      exact ih s'.left.length (by rw [hl]; omega) s' rfl
    have ready {s : Waiting} (hs : s.left.length = n) (h : Ready raised deadline s.left s.now) :
        Acc (flip (Step raised deadline)) s := by
      refine ⟨_, fun s' step => ?_⟩
      cases step with
      | pass t lt quiet _ => exact (quiet s.now (Nat.le_refl _) lt h).elim
      | join w rest time ending perm _ _ => exact joined hs perm rfl
    refine ⟨_, fun s' step => ?_⟩
    cases step with
    | pass t _ _ h => exact ready hn h
    | join w rest time ending perm _ _ => exact joined hn perm rfl

end Select

/-! ## The wait -/

theorem BatchSummary.record_interrupted (s : BatchSummary) (ending : Ending) :
    (s.record ending).interrupted = s.interrupted := by
  unfold record
  split <;> rfl

section Wait

variable {cut : Option (Instant × Cut)} {w : Worker} {rest : List Worker} {now : Instant} {s : BatchSummary}

theorem wait_cases (cut : Option (Instant × Cut)) (w : Worker) :
    (∃ t c, cut = some (t, c) ∧ ∀ v ∈ w.endTime?, t ≤ v) ∨
      (∃ time ending, w.fate = .ends time ending ∧ ∀ t c, cut = some (t, c) → time < t) ∨
      (w.fate = .never ∧ cut = none) := by
  cases hw : w.fate with
  | never =>
    cases cut with
    | none => exact .inr (.inr ⟨rfl, rfl⟩)
    | some tc => exact .inl ⟨tc.1, tc.2, rfl, by simp [Worker.endTime?_of_never hw]⟩
  | ends time ending =>
    cases cut with
    | none => exact .inr (.inl ⟨time, ending, rfl, by simp⟩)
    | some tc =>
      rcases Nat.lt_or_ge time tc.1 with lt | ge
      · refine .inr (.inl ⟨time, ending, rfl, ?_⟩)
        rintro t c ⟨⟩
        exact lt
      · refine .inl ⟨tc.1, tc.2, rfl, ?_⟩
        simpa [Worker.endTime?_of_ends hw] using ge

theorem wait_close {t : Instant} {c : Cut} (first : ∀ v ∈ w.endTime?, t ≤ v) :
    wait (some (t, c)) (w :: rest) now s =
      ([(c.close (rest.length + 1) s).1], some (max now t, (c.close (rest.length + 1) s).2)) := by
  cases hw : w.fate with
  | never => simp only [wait, hw]
  | ends time ending => simp only [wait, hw, if_pos (first time (Worker.endTime?_of_ends hw))]

theorem wait_join {time : Instant} {ending : Ending} (hw : w.fate = .ends time ending)
    (first : ∀ t c, cut = some (t, c) → time < t) :
    wait cut (w :: rest) now s = (w.farewell rest.length ending ++ (wait cut rest time (s.record ending)).1,
      (wait cut rest time (s.record ending)).2) := by
  cases cut with
  | none => simp only [wait, hw]
  | some tc => simp only [wait, hw, if_neg (Nat.not_le_of_lt (first tc.1 tc.2 rfl))]

theorem wait_endless (hw : w.fate = .never) : wait none (w :: rest) now s = ([], none) := by
  simp only [wait, hw]

theorem wait_ends {ws : List Worker} (comes : (∃ tc, cut = some tc) ∨ ∀ w ∈ ws, ∃ u, w.endTime? = some u) :
    ∃ events clock summary, wait cut ws now s = (events, some (clock, summary)) := by
  induction ws generalizing now s with
  | nil => exact ⟨[], now, s, rfl⟩
  | cons w rest ih =>
    rcases wait_cases cut w with ⟨t, c, rfl, first⟩ | ⟨time, ending, hw, first⟩ | ⟨hw, rfl⟩
    · exact ⟨_, _, _, wait_close first⟩
    · have more := comes.imp_right fun all w' hw' => all w' (List.mem_cons_of_mem _ hw')
      obtain ⟨events, clock, summary, hrest⟩ := ih more
      exact ⟨_, clock, summary, by rw [wait_join hw first, hrest]⟩
    · rcases comes with ⟨tc, hc⟩ | all
      · cases hc
      · obtain ⟨u, hu⟩ := all w List.mem_cons_self
        rw [Worker.endTime?_of_never hw] at hu
        cases hu

theorem wait_interrupted {ws : List Worker} {events : List Event} {clock : Instant} {summary : BatchSummary}
    (unasked : ∀ t, cut ≠ some (t, .shutdown)) (h : wait cut ws now s = (events, some (clock, summary))) :
    summary.interrupted = s.interrupted := by
  induction ws generalizing now s events with
  | nil =>
    cases h
    rfl
  | cons w rest ih =>
    rcases wait_cases cut w with ⟨t, c, rfl, first⟩ | ⟨time, ending, hw, first⟩ | ⟨hw, rfl⟩
    · rw [wait_close first] at h
      cases c with
      | shutdown => exact (unasked t rfl).elim
      | deadline => cases h; rfl
    · rw [wait_join hw first] at h
      obtain ⟨-, hlast⟩ := Prod.mk.inj h
      exact (ih (Prod.ext rfl hlast)).trans (s.record_interrupted ending)
    · rw [wait_endless hw] at h
      cases h

end Wait

open Select

variable {raised deadline : Option Instant}

theorem close_returns {s : Waiting} {t : Instant} {c : Cut} (hc : Cut.first? raised deadline = some (t, c))
    (nonempty : s.left ≠ []) (workers : ∀ w ∈ s.left, ∀ v ∈ w.endTime?, t ≤ v) :
    Returns raised deadline s (max s.now t) (c.close s.left.length s.summary).2
      (s.said ++ [(c.close s.left.length s.summary).1]) := by
  have due : Due (c.time? raised deadline) (max s.now t) := ⟨t, Cut.time?_of_first?_some hc, Nat.le_max_right _ _⟩
  have quiet : ∀ u, s.now ≤ u → u < max s.now t → ¬Ready raised deadline s.left u :=
    fun u hu lt => not_ready_of_lt nonempty workers (Cut.first?_le hc) (by lia)
  refine .head (pass_to (Nat.le_max_left _ _) quiet (.inr (.inr ⟨c, due⟩))) ?_
  exact ⟨_, .refl, rfl, .cut { s with now := max s.now t } c due⟩

theorem join_steps {s : Waiting} {w : Worker} {rest : List Worker} {time : Instant} {ending : Ending}
    (perm : s.left.Perm (w :: rest)) (hw : w.fate = .ends time ending) (le : s.now ≤ time)
    (workers : ∀ w' ∈ s.left, ∀ v ∈ w'.endTime?, time ≤ v) (cuts : ∀ c : Cut, ∀ v ∈ c.time? raised deadline, time ≤ v) :
    Relation.ReflTransGen (Step raised deadline) s
      ⟨time, rest, s.summary.record ending, s.said ++ w.farewell rest.length ending⟩ := by
  have mem : w ∈ s.left := perm.mem_iff.mpr List.mem_cons_self
  have ready : Ready raised deadline s.left time :=
    .inr (.inl ⟨w, mem, time, Worker.endTime?_of_ends hw, Nat.le_refl _⟩)
  have quiet : ∀ u, s.now ≤ u → u < time → ¬Ready raised deadline s.left u :=
    fun u _ lt => not_ready_of_lt (List.ne_nil_of_mem mem) workers cuts lt
  exact (pass_to le quiet ready).tail (.join { s with now := time } w rest time ending perm hw (Nat.le_refl _))

/-- What is first among workers in the order of their ends and the cuts: a cut, the first of the
    workers, or nothing at all. -/
theorem first_cases {w : Worker} {rest left : List Worker} (sorted : (w :: rest).Pairwise fun a b => a.before b = true)
    (perm : left.Perm (w :: rest)) :
    (∃ t c, Cut.first? raised deadline = some (t, c) ∧ (∀ v ∈ w.endTime?, t ≤ v) ∧
      ∀ w' ∈ left, ∀ v ∈ w'.endTime?, t ≤ v) ∨
    (∃ time ending, w.fate = .ends time ending ∧ (∀ t c, Cut.first? raised deadline = some (t, c) → time < t) ∧
      (∀ w' ∈ left, ∀ v ∈ w'.endTime?, time ≤ v) ∧ ∀ c : Cut, ∀ v ∈ c.time? raised deadline, time ≤ v) ∨
    (w.fate = .never ∧ Cut.first? raised deadline = none ∧ ∀ w' ∈ left, w'.endTime? = none) := by
  -- whoever is left ends no sooner than the first of them
  have later : ∀ w' ∈ left, ∀ v ∈ w'.endTime?, Due w.endTime? v := by
    intro w' hw' v hv
    rcases List.mem_cons.mp (perm.mem_iff.mp hw') with rfl | hw'
    · exact ⟨v, hv, Nat.le_refl _⟩
    · exact Worker.before_iff.mp ((List.pairwise_cons.mp sorted).1 w' hw') v hv
  rcases wait_cases (Cut.first? raised deadline) w with ⟨t, c, hc, before⟩ | ⟨time, ending, hw, before⟩ | ⟨hw, hc⟩
  · refine .inl ⟨t, c, hc, before, fun w' hw' v hv => ?_⟩
    obtain ⟨u, hu, le⟩ := later w' hw' v hv
    exact Nat.le_trans (before u hu) le
  · have hend := Worker.endTime?_of_ends hw
    refine .inr (.inl ⟨time, ending, hw, before, fun w' hw' v hv => ?_, fun c v hv => ?_⟩)
    · exact (due_iff_of_mem hend).mp (later w' hw' v hv)
    · exact Nat.le_of_lt (Cut.lt_of_lt_first? before c v hv)
  · refine .inr (.inr ⟨hw, hc, fun w' hw' => Option.eq_none_iff_forall_ne_some.mpr fun v hv => ?_⟩)
    obtain ⟨u, hu, -⟩ := later w' hw' v hv
    rw [Worker.endTime?_of_never hw] at hu
    cases hu

/-- A wait that comes to an end is a run of the loop. -/
theorem wait_returns {ws left : List Worker} {now clock : Instant} {s summary : BatchSummary} {said events : List Event}
    (sorted : ws.Pairwise fun a b => a.before b = true) (perm : left.Perm ws)
    (ahead : ∀ w ∈ ws, ∀ u ∈ w.endTime?, now ≤ u)
    (h : wait (Cut.first? raised deadline) ws now s = (events, some (clock, summary))) :
    Returns raised deadline ⟨now, left, s, said⟩ clock summary (said ++ events) := by
  induction ws generalizing left now s said events with
  | nil =>
    simp only [wait, Prod.mk.injEq, Option.some.injEq] at h
    obtain ⟨rfl, rfl, rfl⟩ := h
    rw [List.append_nil]
    exact ⟨_, .refl, rfl, .done _ (List.perm_nil.mp perm)⟩
  | cons w rest ih =>
    rcases first_cases sorted perm with
      ⟨t, c, hc, before, workers⟩ | ⟨time, ending, hw, before, workers, cuts⟩ | ⟨hw, hc, -⟩
    · rw [hc, wait_close before, ← List.length_cons (a := w), ← perm.length_eq] at h
      simp only [Prod.mk.injEq, Option.some.injEq] at h
      obtain ⟨rfl, rfl, rfl⟩ := h
      have nonempty : left ≠ [] := fun e => by simp [e] at perm
      exact close_returns (s := ⟨now, left, s, said⟩) hc nonempty workers
    · rw [wait_join hw before] at h
      obtain ⟨rfl, hlast⟩ := Prod.mk.inj h
      have le : now ≤ time := ahead w List.mem_cons_self time (Worker.endTime?_of_ends hw)
      rw [← List.append_assoc]
      refine .head (join_steps perm hw le workers cuts) ?_
      refine ih (List.pairwise_cons.mp sorted).2 (.refl _) (fun w' hw' v hv => ?_) (Prod.ext rfl hlast)
      exact workers w' (perm.mem_iff.mpr (List.mem_cons_of_mem _ hw')) v hv
    · rw [hc, wait_endless hw] at h
      cases h

end Fleet

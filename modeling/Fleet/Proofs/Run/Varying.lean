/-
  Fleet.Proofs.Run.Varying — two runs that differ only in what becomes of workers whose batch
  has returned.

  A batch looks at no worker that ends after it has returned (`BatchSummary.leavesFrom`): in the order of
  their ends they all stand behind the others (`inEndOrder_varied`), and its wait never comes
  to them (`wait_varied`). So it returns at the same instant with the same summary, however
  they end, and if they do not (`batch_varied`). Nothing but the instants and summaries of its batches
  decides how a sweep goes on, and nothing but the clock how a session does; so what shows of
  a whole session is the same too (`serveAll_varied`).
-/

import Fleet.Proofs.Run.Serving

namespace Fleet

variable {σ α : Type}

/-! ## What shows -/

/-- An act as it shows, with nothing said about how a worker ends. -/
def Act.shown : Act → Act
  | .start w => .start { w with fate := .never }
  | act => act

def Ran.shown (ran : Ran σ α) : Ran σ α := { ran with acts := ran.acts.map Act.shown }

theorem Ran.shown_eq_iff {ran ran' : Ran σ α} : ran'.shown = ran.shown ↔ ran'.place = ran.place ∧
    ran'.clock = ran.clock ∧ ran'.acts.map Act.shown = ran.acts.map Act.shown ∧ ran'.result = ran.result := by
  simp only [shown, Ran.mk.injEq]

def Bout.shown (b : Bout σ) : Bout σ := { b with ran := b.ran.shown }

/-! ## Workers that end late -/

namespace Worker

def Late (bound : Instant) (w : Worker) : Prop := ∀ u ∈ w.endTime?, bound ≤ u

/-- One worker in place of another: the same, or both of them end late. -/
def Varied (bound : Instant) (w w' : Worker) : Prop := w' = w ∨ w.Late bound ∧ w'.Late bound

theorem inEndOrder_cons (w : Worker) (rest : List Worker) :
    inEndOrder (w :: rest) =
      (inEndOrder rest).takeWhile (!w.before ·) ++ w :: (inEndOrder rest).dropWhile (!w.before ·) := by
  obtain ⟨front, back, h, hrest, earlier⟩ := List.mergeSort_cons before_trans before_total w rest
  have sorted := inEndOrder_pairwise (w :: rest)
  rw [inEndOrder, h] at sorted
  have later : ∀ v ∈ back, w.before v = true := (List.pairwise_cons.mp (List.pairwise_append.mp sorted).2.1).1
  have stop : back.takeWhile (!w.before ·) = [] ∧ back.dropWhile (!w.before ·) = back := by
    cases back with
    | nil => exact ⟨rfl, rfl⟩
    | cons v rest => simp [later v List.mem_cons_self]
  rw [inEndOrder, h, inEndOrder, hrest, List.takeWhile_append_of_pos earlier, List.dropWhile_append_of_pos earlier,
    stop.1, stop.2, List.append_nil]

variable {bound : Instant}

theorem exists_of_not_late {w : Worker} (h : ¬w.Late bound) : ∃ u ∈ w.endTime?, u < bound := by
  simpa [Late] using h

theorem before_of_late {v w : Worker} (hv : ¬v.Late bound) (hw : w.Late bound) : v.before w = true := by
  obtain ⟨t, ht, early⟩ := exists_of_not_late hv
  rw [before_iff]
  intro u hu
  exact ⟨t, ht, Nat.le_of_lt (Nat.lt_of_lt_of_le early (hw u hu))⟩

theorem not_before_of_late {v w : Worker} (hv : v.Late bound) (hw : ¬w.Late bound) : v.before w = false := by
  obtain ⟨u, hu, early⟩ := exists_of_not_late hw
  rw [← Bool.not_eq_true, before_iff]
  intro h
  obtain ⟨t, ht, le⟩ := h u hu
  exact Nat.not_lt_of_le (Nat.le_trans (hv t ht) le) early

theorem inEndOrder_late {w : Worker} {rest first late : List Worker} (hw : w.Late bound)
    (h : inEndOrder rest = first ++ late) (early : ∀ v ∈ first, ¬v.Late bound) (all : ∀ v ∈ late, v.Late bound) :
    ∃ more, inEndOrder (w :: rest) = first ++ more ∧ more.length = late.length + 1 ∧ ∀ v ∈ more, v.Late bound := by
  have behind : ∀ v ∈ first, (!w.before v) = true := by
    intro v hv
    rw [not_before_of_late hw (early v hv)]
    rfl
  refine ⟨late.takeWhile (!w.before ·) ++ w :: late.dropWhile (!w.before ·), ?_, ?_, ?_⟩
  · rw [inEndOrder_cons, h, List.takeWhile_append_of_pos behind, List.dropWhile_append_of_pos behind, List.append_assoc]
  · have length := congrArg List.length (List.takeWhile_append_dropWhile (p := (!w.before ·)) (l := late))
    rw [List.length_append] at length
    rw [List.length_append, List.length_cons]
    omega
  · intro v hv
    rcases List.mem_append.mp hv with hv | hv
    · exact all v (List.takeWhile_subset _ hv)
    · rcases List.mem_cons.mp hv with rfl | hv
      · exact hw
      · exact all v (List.dropWhile_subset _ hv)

theorem inEndOrder_early {w : Worker} (hw : ¬w.Late bound) (first : List Worker) :
    ∃ more, (∀ rest late, inEndOrder rest = first ++ late → (∀ v ∈ late, v.Late bound) →
      inEndOrder (w :: rest) = more ++ late) ∧ ∀ v ∈ more, v = w ∨ v ∈ first := by
  refine ⟨first.takeWhile (!w.before ·) ++ w :: first.dropWhile (!w.before ·), ?_, ?_⟩
  · intro rest late h all
    rw [inEndOrder_cons, h]
    clear h
    induction first with
    | nil =>
      cases late with
      | nil => rfl
      | cons v rest => simp [before_of_late hw (all v List.mem_cons_self)]
    | cons v first ih =>
      cases hv : w.before v with
      | true => simp [hv]
      | false => simpa [hv] using ih
  · intro v hv
    rcases List.mem_append.mp hv with hv | hv
    · exact .inr (List.takeWhile_subset _ hv)
    · rcases List.mem_cons.mp hv with rfl | hv
      · exact .inl rfl
      · exact .inr (List.dropWhile_subset _ hv)

/-- In the order of their ends, workers that end late stand behind the others, and those in
    front are the same in the same order. -/
theorem inEndOrder_varied {ws ws' : List Worker} (varied : List.Forall₂ (Varied bound) ws ws') :
    ∃ first late late', inEndOrder ws = first ++ late ∧ inEndOrder ws' = first ++ late' ∧
      late.length = late'.length ∧ (∀ w ∈ first, ¬w.Late bound) ∧ (∀ w ∈ late, w.Late bound) ∧
      ∀ w ∈ late', w.Late bound := by
  induction varied with
  | nil => exact ⟨[], [], [], by simp [inEndOrder], by simp [inEndOrder], rfl, nofun, nofun, nofun⟩
  | @cons w w' rest rest' hw _ ih =>
    obtain ⟨first, late, late', h, h', length, early, all, all'⟩ := ih
    have both (hl : w.Late bound) (hl' : w'.Late bound) :
        ∃ first late late', inEndOrder (w :: rest) = first ++ late ∧ inEndOrder (w' :: rest') = first ++ late' ∧
          late.length = late'.length ∧ (∀ w ∈ first, ¬w.Late bound) ∧ (∀ w ∈ late, w.Late bound) ∧
          ∀ w ∈ late', w.Late bound := by
      obtain ⟨more, hmore, len, mall⟩ := inEndOrder_late hl h early all
      obtain ⟨more', hmore', len', mall'⟩ := inEndOrder_late hl' h' early all'
      exact ⟨first, more, more', hmore, hmore', by omega, early, mall, mall'⟩
    rcases hw with rfl | ⟨hl, hl'⟩
    · by_cases hl : w'.Late bound
      · exact both hl hl
      · obtain ⟨more, insert, mem⟩ := inEndOrder_early hl first
        refine ⟨more, late, late', insert rest late h all, insert rest' late' h' all', length, ?_, all, all'⟩
        intro v hv
        rcases mem v hv with rfl | hv
        · exact hl
        · exact early v hv
    · exact both hl hl'

end Worker

/-! ## Waiting -/

section Wait

variable {cut : Option (Instant × Cut)} {now clock bound : Instant} {s summary : BatchSummary} {events : List Event}

/-- A wait for workers that end late, from a late instant on, does not end early. -/
theorem late_of_wait {ws : List Worker} (all : ∀ w ∈ ws, w.Late bound) (late : bound ≤ now)
    (h : wait cut ws now s = (events, some (clock, summary))) : bound ≤ clock := by
  induction ws generalizing now s events with
  | nil =>
    cases h
    exact late
  | cons w rest ih =>
    obtain ⟨hw, hrest⟩ := List.forall_mem_cons.mp all
    rcases wait_cases cut w with ⟨t, c, rfl, first⟩ | ⟨time, ending, he, first⟩ | ⟨he, rfl⟩
    · rw [wait_close first] at h
      cases h
      exact Nat.le_trans late (Nat.le_max_left _ _)
    · rw [wait_join he first] at h
      obtain ⟨-, hlast⟩ := Prod.mk.inj h
      exact ih hrest (hw time (Worker.endTime?_of_ends he)) (Prod.ext rfl hlast)
    · rw [wait_endless he] at h
      cases h

def BatchSummary.isCut (s : BatchSummary) : Bool := s.interrupted || s.timedOut != 0

theorem BatchSummary.record_isCut (s : BatchSummary) (ending : Ending) : (s.record ending).isCut = s.isCut := by
  unfold record
  split <;> rfl

theorem cut_of_wait {ws : List Worker} (h : wait cut ws now s = (events, some (clock, summary)))
    (begun : s.isCut = false) (short : summary.isCut = true) : ∃ t c, cut = some (t, c) ∧ t ≤ clock := by
  induction ws generalizing now s events with
  | nil =>
    cases h
    rw [begun] at short
    cases short
  | cons w rest ih =>
    rcases wait_cases cut w with ⟨t, c, rfl, first⟩ | ⟨time, ending, he, first⟩ | ⟨he, rfl⟩
    · rw [wait_close first] at h
      cases h
      exact ⟨t, c, rfl, Nat.le_max_right _ _⟩
    · rw [wait_join he first] at h
      obtain ⟨-, hlast⟩ := Prod.mk.inj h
      exact ih (Prod.ext rfl hlast) ((s.record_isCut ending).trans begun)
    · rw [wait_endless he] at h
      cases h

/-- From when on a batch that returned at some instant leaves workers to themselves. One that
    ends at that very instant it still sees, unless it was cut short: then the cut went first. -/
def BatchSummary.leavesFrom (s : BatchSummary) (clock : Instant) : Instant := if s.isCut then clock else clock + 1

/-- A wait never comes to workers that it leaves. -/
theorem wait_varied {first late late' : List Worker} (begun : s.isCut = false) (length : late.length = late'.length)
    (all : ∀ w ∈ late, w.Late (summary.leavesFrom clock)) (all' : ∀ w ∈ late', w.Late (summary.leavesFrom clock))
    (h : wait cut (first ++ late) now s = (events, some (clock, summary))) :
    wait cut (first ++ late') now s = (events, some (clock, summary)) := by
  have le_leaves : clock ≤ summary.leavesFrom clock := by
    unfold BatchSummary.leavesFrom
    split
    · exact Nat.le_refl _
    · exact Nat.le_succ _
  have lt_leaves : ¬summary.leavesFrom clock ≤ clock ∨ ∃ t c, cut = some (t, c) ∧ t ≤ summary.leavesFrom clock := by
    cases short : summary.isCut with
    | false => exact .inl (by rw [BatchSummary.leavesFrom, short]; exact Nat.not_succ_le_self clock)
    | true =>
      obtain ⟨t, c, hcut, le⟩ := cut_of_wait h begun short
      exact .inr ⟨t, c, hcut, Nat.le_trans le le_leaves⟩
  clear begun
  induction first generalizing now s events with
  | nil =>
    cases late with
    | nil =>
      rw [List.eq_nil_of_length_eq_zero length.symm]
      exact h
    | cons w rest =>
      obtain ⟨w', rest', rfl⟩ : ∃ w' rest', late' = w' :: rest' := by
        refine List.exists_cons_of_length_pos ?_
        rw [← length]
        exact Nat.succ_pos _
      have len : rest.length = rest'.length := Nat.succ.inj length
      obtain ⟨hw, hrest⟩ := List.forall_mem_cons.mp all
      obtain ⟨hw', -⟩ := List.forall_mem_cons.mp all'
      rw [List.nil_append] at h ⊢
      rcases wait_cases cut w with ⟨t, c, rfl, first⟩ | ⟨time, ending, he, first⟩ | ⟨he, rfl⟩
      · rw [wait_close first, len] at h
        have le : t ≤ clock := by
          cases h
          exact Nat.le_max_right _ _
        rw [wait_close fun v hv => Nat.le_trans (Nat.le_trans le le_leaves) (hw' v hv)]
        exact h
      · -- the first of the late workers would be counted, but the wait is over by then
        rw [wait_join he first] at h
        obtain ⟨-, hlast⟩ := Prod.mk.inj h
        have late := hw time (Worker.endTime?_of_ends he)
        rcases lt_leaves with lt | ⟨t, c, hcut, le⟩
        · exact absurd (late_of_wait hrest late (Prod.ext rfl hlast)) lt
        · exact absurd (Nat.le_trans le late) (Nat.not_le_of_lt (first t c hcut))
      · rw [wait_endless he] at h
        cases h
  | cons w first ih =>
    have len : (first ++ late).length = (first ++ late').length := by
      rw [List.length_append, List.length_append, length]
    rw [List.cons_append] at h ⊢
    rcases wait_cases cut w with ⟨t, c, rfl, cuts⟩ | ⟨time, ending, he, joins⟩ | ⟨he, rfl⟩
    · rw [wait_close cuts, len] at h
      rw [wait_close cuts, h]
    · rw [wait_join he joins] at h ⊢
      obtain ⟨said, hlast⟩ := Prod.mk.inj h
      rw [← len, ih (Prod.ext rfl hlast)]
      exact Prod.ext said rfl
    · rw [wait_endless he] at h
      cases h

end Wait

/-! ## Batches -/

/-- Two hosts that differ in nothing but what becomes of workers. -/
structure Host.Alike (h h' : Host σ) : Prop where
  place : ∀ place now c, (h'.start place now c).1 = (h.start place now c).1
  events : ∀ place now c, (h'.start place now c).2.events = (h.start place now c).2.events
  asked : ∀ place, h'.asked place = h.asked place

section Batch

variable {h h' : Host σ} {pacing : Pacing} {raised : Option Instant} {now : Instant} {place : σ}
  {commands : List Command}

theorem Act.map_shown_say (events : List Event) : (events.map Act.say).map Act.shown = events.map Act.say := by
  rw [List.map_map]
  rfl

theorem Host.Alike.startAll (alike : h.Alike h') (now : Instant) (place : σ) (commands : List Command) :
    (h'.startAll now place commands).1 = (h.startAll now place commands).1 ∧
      (h'.startAll now place commands).2.map Act.shown = (h.startAll now place commands).2.map Act.shown := by
  induction commands generalizing place with
  | nil => exact ⟨rfl, rfl⟩
  | cons c rest ih =>
    obtain ⟨hplace, acts⟩ := ih (h.start place now c).1
    simp only [Host.startAll, alike.place, alike.events, List.map_append, hplace, acts]
    exact ⟨trivial, rfl⟩

theorem Host.Alike.batch (alike : h.Alike h')
    (hwait : h'.batchWait pacing raised now place commands = h.batchWait pacing raised now place commands) :
    (h'.batch pacing raised now place commands).shown = (h.batch pacing raised now place commands).shown := by
  obtain ⟨hplace, acts⟩ := alike.startAll now place commands
  have shown {clock : Instant} {events : List Event} {result : Except Halt BatchSummary} :
      (Ran.mk (h'.startAll now place commands).1 clock ((h'.startAll now place commands).2 ++ events.map .say)
        result).shown =
      (Ran.mk (h.startAll now place commands).1 clock ((h.startAll now place commands).2 ++ events.map .say)
        result).shown := by
    simp only [Ran.shown, List.map_append, hplace, acts]
  unfold Host.batchWait Host.batchRaised Pacing.deadline Host.batchWorkers at hwait
  unfold Host.batch
  cases timed : pacing.timeout with
  | none =>
    simp only [timed, Option.map_none] at hwait
    simp only [hwait]
    rcases wait _ _ _ _ with ⟨events, _ | ⟨clock, summary⟩⟩ <;> exact shown
  | some length =>
    by_cases lt : now + length < Clock.horizon
    · have held : Clock.deadline? now length = some (now + length) := if_pos lt
      simp only [timed, Option.map_some] at hwait
      simp only [held, hwait]
      rcases wait _ _ _ _ with ⟨events, _ | ⟨clock, summary⟩⟩ <;> exact shown
    · have unheld : Clock.deadline? now length = none := if_neg lt
      simp only [unheld]
      exact shown

/-- A batch has returned and sees this worker end no more. -/
def Bout.Leaves (b : Bout σ) (w : Worker) : Prop :=
  ∃ summary, b.ran.result = .ok summary ∧ w.Late (summary.leavesFrom b.ran.clock)

/-- On another host, the workers of a batch are the same, but for those that end after the
    batch has let go of them on either. -/
def Bout.Varies (b : Bout σ) (h' : Host σ) : Prop :=
  List.Forall₂ (fun w w' => w' = w ∨ b.Leaves w ∧ b.Leaves w') b.workers (h'.batchWorkers b.now b.place b.commands)

/-- What shows of a batch does not depend on what becomes of its workers after it has
    returned. -/
theorem batch_varied (alike : h.Alike h') (varies : (h.bout pacing raised now place commands).Varies h') :
    (h'.batch pacing raised now place commands).shown = (h.batch pacing raised now place commands).shown := by
  have flag : h'.batchRaised raised now place commands = h.batchRaised raised now place commands := by
    rw [Host.batchRaised, Host.batchRaised, alike.asked, (alike.startAll now place commands).1]
  rw [Bout.Varies, h.workers_bout] at varies
  refine alike.batch ?_
  cases hres : (h.batch pacing raised now place commands).result with
  | error halt =>
    have same : List.Forall₂ (· = ·) (h.batchWorkers now place commands) (h'.batchWorkers now place commands) := by
      refine varies.imp fun w w' hw => ?_
      rcases hw with rfl | ⟨⟨summary, hok, -⟩, -⟩
      · rfl
      · cases hres.symm.trans hok
    rw [List.forall₂_eq_eq_eq] at same
    rw [Host.batchWait, Host.batchWait, flag, same]
  | ok summary =>
    obtain ⟨events, hwait⟩ := Host.wait_of_batch hres
    have late {w : Worker} (leaves : (h.bout pacing raised now place commands).Leaves w) :
        w.Late (summary.leavesFrom (h.batch pacing raised now place commands).clock) := by
      obtain ⟨summary', hok, late⟩ := leaves
      cases hres.symm.trans hok
      exact late
    have varied : List.Forall₂ (Worker.Varied (summary.leavesFrom (h.batch pacing raised now place commands).clock))
        (h.batchWorkers now place commands) (h'.batchWorkers now place commands) :=
      varies.imp fun w w' hw => hw.imp_right fun both => ⟨late both.1, late both.2⟩
    obtain ⟨first, late, late', hsort, hsort', length, -, all, all'⟩ := Worker.inEndOrder_varied varied
    rw [hwait]
    rw [Host.batchWait, hsort] at hwait
    rw [Host.batchWait, hsort', flag]
    exact wait_varied rfl length all all' hwait

end Batch

/-! ## Sweeps -/

theorem ClientLaunch.runFrom_varied {h h' : Host σ} (alike : h.Alike h') {pacing : Pacing} {raised : Option Instant}
    (l : ClientLaunch) {n k : Nat} {now : Instant} {place : σ} (total : SweepSummary)
    (varies : ∀ b ∈ l.boutsFrom h pacing raised n k now place, b.Varies h') :
    (l.runFrom h' pacing raised n k now place total).shown = (l.runFrom h pacing raised n k now place total).shown ∧
      (l.boutsFrom h' pacing raised n k now place).map Bout.shown =
        (l.boutsFrom h pacing raised n k now place).map Bout.shown := by
  induction n generalizing k now place total with
  | zero => exact ⟨rfl, rfl⟩
  | succ n ih =>
    cases hr : l.runAt? k with
    | none => simp only [runFrom, boutsFrom, hr, and_self]
    | some r =>
      simp only [boutsFrom, hr] at varies
      obtain ⟨first, rest⟩ := List.forall_mem_cons.mp varies
      have same := batch_varied alike first
      obtain ⟨hplace, hclock, hacts, hresult⟩ := Ran.shown_eq_iff.mp same
      have bout : (h'.bout pacing raised now place (l.commandsFor r.target)).shown =
          (h.bout pacing raised now place (l.commandsFor r.target)).shown := by
        rw [Bout.shown, Bout.shown, Host.bout, Host.bout, same]
      simp only [runFrom, boutsFrom, hr, Host.bout, hplace, hclock, hresult, alike.asked] at rest bout ⊢
      have one : [Host.bout h' pacing raised now place (l.commandsFor r.target)].map Bout.shown =
          [Host.bout h pacing raised now place (l.commandsFor r.target)].map Bout.shown :=
        congrArg (fun b => [b]) bout
      cases hres : (h.batch pacing raised now place (l.commandsFor r.target)).result with
      | error halt => exact ⟨Ran.shown_eq_iff.mpr ⟨rfl, rfl, by simp only [List.map_cons, hacts], rfl⟩, one⟩
      | ok s =>
        cases hs : s.interrupted with
        | true =>
          simp only [hs, if_true]
          exact ⟨Ran.shown_eq_iff.mpr ⟨rfl, rfl, by simp only [List.map_cons, List.map_append, hacts], rfl⟩, one⟩
        | false =>
          simp only [hres, hs, Bool.false_eq_true, if_false] at rest ⊢
          rcases hpause : pacing.pause _ _ with ⟨clock, _ | _⟩
          · simp only [hpause] at rest
            obtain ⟨more, bouts⟩ := ih (total.absorb s) rest
            obtain ⟨mplace, mclock, macts, mresult⟩ := Ran.shown_eq_iff.mp more
            refine ⟨Ran.shown_eq_iff.mpr ⟨mplace, mclock, ?_, mresult⟩, ?_⟩
            · simp only [List.map_cons, List.map_append, hacts, macts]
            · rw [List.map_cons, List.map_cons, bout, bouts]
          · exact ⟨Ran.shown_eq_iff.mpr ⟨rfl, rfl, by simp only [List.map_cons, List.map_append, hacts], rfl⟩, one⟩

/-! ## Sessions -/

theorem Ran.conclude_shown (ran : Ran σ SweepSummary) (closing : SweepSummary → List Event) :
    (ran.conclude closing).shown = ran.shown.conclude closing := by
  cases hres : ran.result with
  | error halt => simp only [conclude, shown, hres]
  | ok total => simp only [conclude, shown, hres, List.map_append, Act.map_shown_say]

def Served.shown (served : Served σ) : List (Bout σ) × List Act × Except Halt Answer × Instant :=
  (served.bouts.map Bout.shown, served.acts.map Act.shown, served.result, served.after.clock)

structure Session.Alike (s s' : Session σ) : Prop where
  host : s.host.Alike s'.host
  pacing : s'.pacing = s.pacing
  place : s'.place = s.place
  clock : s'.clock = s.clock
  switch : s'.switch = s.switch

namespace Session

variable {s s' : Session σ}

theorem Alike.after (alike : s.Alike s') {ran ran' : Ran σ α} (same : ran'.shown = ran.shown) :
    (s.after ran).Alike (s'.after ran') := by
  obtain ⟨hplace, hclock, -, -⟩ := Ran.shown_eq_iff.mp same
  refine ⟨alike.host, alike.pacing, hplace, hclock, ?_⟩
  rw [Session.after, Session.after, alike.switch, hclock]

theorem Alike.served (alike : s.Alike s') {bouts bouts' : List (Bout σ)} {ran ran' : Ran σ α}
    (hbouts : bouts'.map Bout.shown = bouts.map Bout.shown) (same : ran'.shown = ran.shown) (answer : α → Answer) :
    (Served.mk bouts' ran'.acts (ran'.result.map answer) (s'.after ran')).shown =
      (Served.mk bouts ran.acts (ran.result.map answer) (s.after ran)).shown ∧ (s.after ran).Alike (s'.after ran') := by
  obtain ⟨-, hclock, hacts, hresult⟩ := Ran.shown_eq_iff.mp same
  refine ⟨?_, alike.after same⟩
  simp only [Served.shown, Session.after, hbouts, hacts, hresult, hclock]

theorem Alike.quietly {t t' : Session σ} (alike : t.Alike t') :
    (quietly t').shown = (quietly t).shown ∧ t.Alike t' := by
  refine ⟨?_, alike⟩
  simp only [Served.shown, Session.quietly, alike.clock]

/-- What shows of a request does not depend on what becomes of workers whose batch has
    returned. -/
theorem serve_varied (alike : s.Alike s') (r : Request) (varies : ∀ b ∈ (s.serve r).bouts, b.Varies s'.host) :
    (s'.serve r).shown = (s.serve r).shown ∧ (s.serve r).after.Alike (s'.serve r).after := by
  obtain ⟨h, pacing, place, clock, switch, workers⟩ := s
  obtain ⟨h', pacing', place', clock', switch', workers'⟩ := s'
  have alike' := alike
  obtain ⟨host, rfl, rfl, rfl, rfl⟩ := alike
  have bout {pacing : Pacing} {raised : Option Instant} {clock : Instant} {place : σ} {commands : List Command}
      (same : (h'.batch pacing raised clock place commands).shown =
        (h.batch pacing raised clock place commands).shown) :
      [h'.bout pacing raised clock place commands].map Bout.shown =
        [h.bout pacing raised clock place commands].map Bout.shown :=
    congrArg (fun ran => [Bout.mk clock place commands ran]) same
  cases r with
  | batch commands =>
    have same := batch_varied host (varies _ List.mem_cons_self)
    exact alike'.served (bout same) same .batch
  | servers l =>
    have same := batch_varied host (varies _ List.mem_cons_self)
    refine alike'.served (bout same) ?_ .totals
    obtain ⟨hplace, hclock, hacts, hresult⟩ := Ran.shown_eq_iff.mp same
    rw [Session.servers, Session.servers, Ran.conclude_shown, Ran.conclude_shown]
    refine congrArg (Ran.conclude · _) (Ran.shown_eq_iff.mpr ⟨hplace, hclock, hacts, ?_⟩)
    exact congrArg (Except.map _) hresult
  | clients l =>
    obtain ⟨same, bouts⟩ := l.runFrom_varied host {} varies
    refine alike'.served bouts ?_ .totals
    rw [Session.clients, Session.clients, Ran.conclude_shown, Ran.conclude_shown]
    exact congrArg (Ran.conclude · _) same
  | move isUp => exact Alike.quietly ⟨host, rfl, rfl, rfl, rfl⟩
  | raiseIn length => exact Alike.quietly ⟨host, rfl, rfl, rfl, rfl⟩
  | release => exact Alike.quietly ⟨host, rfl, rfl, rfl, rfl⟩
  | advance length => exact Alike.quietly ⟨host, rfl, rfl, rfl, rfl⟩

theorem serveAll_varied (alike : s.Alike s') (requests : List Request)
    (varies : ∀ b ∈ boutsOf (s.serveAll requests), b.Varies s'.host) :
    (s'.serveAll requests).map Served.shown = (s.serveAll requests).map Served.shown := by
  induction requests generalizing s s' with
  | nil => rfl
  | cons r rest ih =>
    simp only [serveAll, boutsOf, List.flatMap_cons, List.mem_append] at varies
    obtain ⟨same, after⟩ := serve_varied alike r fun b hb => varies b (.inl hb)
    have result : (s'.serve r).result = (s.serve r).result := congrArg (fun shown => shown.2.2.1) same
    obtain ⟨host', -⟩ := s'.serve_after r
    simp only [serveAll, List.map_cons, same, result]
    cases hres : (s.serve r).result with
    | error halt => rfl
    | ok answer =>
      refine congrArg _ (ih after fun b hb => ?_)
      rw [host']
      refine varies b (.inr ?_)
      rw [hres]
      exact hb

end Session

end Fleet

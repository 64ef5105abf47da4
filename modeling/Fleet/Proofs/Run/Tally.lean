/-
  Fleet.Proofs.Run.Tally — counting workers outside of any run: what a batch makes of an
  end (`Ending.verdict`), the summary that a list of ended workers comes to (`tally`), and
  when the last of a list has ended (`lastEnd?`).
-/

import Fleet.Proofs.Run.Select

namespace Fleet

/-! ## Verdicts -/

/-- What a batch makes of a worker that has ended. -/
inductive Verdict where
  | succeeded
  | failed
  | neverRan
  deriving DecidableEq, Repr

def Ending.verdict : Ending → Verdict
  | .exited (some 0) => .succeeded
  | .exited _ | .lost => .failed
  | .notStarted _ => .neverRan

def Worker.verdict? (w : Worker) : Option Verdict :=
  match w.fate with
  | .never => none
  | .ends _ ending => some ending.verdict

theorem Worker.verdict?_of_ends {w : Worker} {time : Instant} {ending : Ending} (h : w.fate = .ends time ending) :
    w.verdict? = some ending.verdict := by
  rw [verdict?, h]

def count (v : Verdict) (ws : List Worker) : Nat := ws.countP fun w => w.verdict? == some v

theorem count_cons (v : Verdict) (w : Worker) (ws : List Worker) :
    count v (w :: ws) = count v ws + if w.verdict? = some v then 1 else 0 := by
  simp [count, List.countP_cons]

theorem count_le_length (v : Verdict) (ws : List Worker) : count v ws ≤ ws.length := List.countP_le_length

theorem count_perm {ws ws' : List Worker} (v : Verdict) (perm : ws.Perm ws') : count v ws = count v ws' :=
  perm.countP_eq _

/-- The summary of a batch of `launched` workers when those of a list have been counted. -/
def tally (launched : Nat) (ended : List Worker) : BatchSummary where
  launched := .ofNat launched
  succeeded := .ofNat (count .succeeded ended)
  failed := .ofNat (count .failed ended)
  startFailed := .ofNat (count .neverRan ended)

theorem tally_perm {ws ws' : List Worker} (launched : Nat) (perm : ws.Perm ws') :
    tally launched ws = tally launched ws' := by
  simp only [tally, count_perm _ perm]

theorem BatchSummary.record_eq (s : BatchSummary) (ending : Ending) :
    s.record ending = match ending.verdict with
      | .succeeded => { s with succeeded := s.succeeded + 1 }
      | .failed => { s with failed := s.failed + 1 }
      | .neverRan => { s with startFailed := s.startFailed + 1 } := by
  unfold record Ending.verdict
  split <;> simp only

theorem record_tally {w : Worker} {time : Instant} {ending : Ending} (h : w.fate = .ends time ending) (launched : Nat)
    (ws : List Worker) : (tally launched ws).record ending = tally launched (w :: ws) := by
  rw [BatchSummary.record_eq]
  simp only [tally, count_cons, Worker.verdict?_of_ends h, Option.some.injEq]
  cases ending.verdict <;> simp [UInt32.ofNat_add]

/-- The counters of a tally are exact as long as they cannot wrap. -/
theorem toNat_tally {launched : Nat} {ws : List Worker} (fits : launched < UInt32.size) (le : ws.length ≤ launched) :
    (tally launched ws).launched.toNat = launched ∧ (tally launched ws).succeeded.toNat = count .succeeded ws ∧
      (tally launched ws).failed.toNat = count .failed ws ∧
      (tally launched ws).startFailed.toNat = count .neverRan ws := by
  have small (v : Verdict) : count v ws < UInt32.size :=
    Nat.lt_of_le_of_lt (Nat.le_trans (count_le_length v ws) le) fits
  exact ⟨UInt32.toNat_ofNat_of_lt' fits, UInt32.toNat_ofNat_of_lt' (small _), UInt32.toNat_ofNat_of_lt' (small _),
    UInt32.toNat_ofNat_of_lt' (small _)⟩

/-! ## Ended and running -/

def endedBy (t : Instant) (ws : List Worker) : List Worker := ws.filter fun w => w.endTime?.any (· ≤ t)

def runningAt (t : Instant) (ws : List Worker) : Nat := ws.countP fun w => !w.endTime?.any (· ≤ t)

theorem any_le_iff_due {time : Option Instant} {t : Instant} : time.any (· ≤ t) = true ↔ Due time t := by
  cases time <;> simp [Due]

theorem split_at {joined left ws : List Worker} {t : Instant} (perm : (joined ++ left).Perm ws)
    (ended : ∀ w ∈ joined, Due w.endTime? t) (running : ∀ w ∈ left, ¬Due w.endTime? t) :
    joined.Perm (endedBy t ws) ∧ left.length = runningAt t ws := by
  have hj : ∀ w ∈ joined, w.endTime?.any (· ≤ t) = true := fun w hw => any_le_iff_due.mpr (ended w hw)
  have hl : ∀ w ∈ left, ¬w.endTime?.any (· ≤ t) = true := fun w hw h => running w hw (any_le_iff_due.mp h)
  constructor
  · have := perm.filter fun w => w.endTime?.any (· ≤ t)
    rwa [List.filter_append, List.filter_eq_self.mpr hj, List.filter_eq_nil_iff.mpr hl, List.append_nil] at this
  · rw [runningAt, ← perm.countP_eq, List.countP_append, List.countP_eq_zero.mpr, List.countP_eq_length.mpr,
      Nat.zero_add]
    · simpa using hl
    · simpa using hj

/-! ## The last end -/

/-- When all workers of a batch that starts at `start` have ended, if they ever have. -/
def lastEnd? (start : Instant) : List Worker → Option Instant
  | [] => some start
  | w :: rest =>
    match w.endTime?, lastEnd? start rest with
    | some time, some last => some (max time last)
    | _, _ => none

variable {start t last : Instant} {ws : List Worker}

theorem lastEnd?_cons {w : Worker} : lastEnd? start (w :: ws) = some last ↔
    ∃ a b, w.endTime? = some a ∧ lastEnd? start ws = some b ∧ last = max a b := by
  rw [lastEnd?]
  cases w.endTime? <;> cases lastEnd? start ws <;> simp [eq_comm]

theorem due_lastEnd (h : lastEnd? start ws = some last) : ∀ w ∈ ws, Due w.endTime? last := by
  induction ws generalizing last with
  | nil => simp
  | cons w rest ih =>
    obtain ⟨a, b, ha, hb, rfl⟩ := lastEnd?_cons.mp h
    intro w' hw'
    rcases List.mem_cons.mp hw' with rfl | hw'
    · exact ⟨a, ha, Nat.le_max_left _ _⟩
    · exact (ih hb w' hw').mono (Nat.le_max_right _ _)

theorem lastEnd?_le (le : start ≤ t) (due : ∀ w ∈ ws, Due w.endTime? t) :
    ∃ last, lastEnd? start ws = some last ∧ last ≤ t := by
  induction ws with
  | nil => exact ⟨start, rfl, le⟩
  | cons w rest ih =>
    obtain ⟨a, ha, hat⟩ := due w List.mem_cons_self
    obtain ⟨b, hb, hbt⟩ := ih fun w' hw' => due w' (List.mem_cons_of_mem _ hw')
    exact ⟨max a b, lastEnd?_cons.mpr ⟨a, b, ha, hb, rfl⟩, Nat.max_le.mpr ⟨hat, hbt⟩⟩

theorem start_le_lastEnd (h : lastEnd? start ws = some last) : start ≤ last := by
  induction ws generalizing last with
  | nil => exact Nat.le_of_eq (Option.some.inj h)
  | cons w rest ih =>
    obtain ⟨a, b, -, hb, rfl⟩ := lastEnd?_cons.mp h
    exact Nat.le_trans (ih hb) (Nat.le_max_right _ _)

theorem lastEnd_attained (ahead : ∀ w ∈ ws, ∀ u ∈ w.endTime?, start ≤ u) (h : lastEnd? start ws = some last) :
    (ws = [] ∧ last = start) ∨ ∃ w ∈ ws, w.endTime? = some last := by
  induction ws generalizing last with
  | nil => exact .inl ⟨rfl, (Option.some.inj h).symm⟩
  | cons w rest ih =>
    obtain ⟨a, b, ha, hb, rfl⟩ := lastEnd?_cons.mp h
    have hstart := ahead w List.mem_cons_self a ha
    rcases ih (fun w' hw' => ahead w' (List.mem_cons_of_mem _ hw')) hb with ⟨-, rfl⟩ | ⟨w', hw', hw'b⟩
    · exact .inr ⟨w, List.mem_cons_self, by rw [ha, Nat.max_eq_left hstart]⟩
    · rcases Nat.le_total a b with le | le
      · exact .inr ⟨w', List.mem_cons_of_mem _ hw', by rw [hw'b, Nat.max_eq_right le]⟩
      · exact .inr ⟨w, List.mem_cons_self, by rw [ha, Nat.max_eq_left le]⟩

end Fleet

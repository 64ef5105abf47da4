/-
  Fleet.Proofs.Launch.PlanReading — plans read back. A plan in lines shows its commands two
  blanks in, under headings that start with another character; `commandLists` finds the
  lists of commands in any lines. A structured plan has them in the fields `commands`, which
  a client plan has once for each entry of its `sweep` (`Json.commands?`, `Json.sweep?`).

  Both formats show the same: the commands of a server launch, and those of each target of a
  client launch in the order of the targets.
-/

import Fleet.Plan
import Fleet.Proofs.Launch.Runs

namespace Fleet

/-! ## Lines -/

def shownCommand? (line : String) : Option String :=
  match line.toList with
  | ' ' :: ' ' :: rest => some (String.ofList rest)
  | _ => none

/-- The commands before the first heading of some lines, and those under each heading. -/
def readLines : List String → List String × List (List String)
  | [] => ([], [])
  | line :: rest =>
    match shownCommand? line with
    | some command => (command :: (readLines rest).1, (readLines rest).2)
    | none => ([], (readLines rest).1 :: (readLines rest).2)

/-- The lists of commands that some lines show. -/
def commandLists (lines : List String) : List (List String) := (readLines lines).2.filter (· ≠ [])

@[simp] theorem shownCommand?_commandLine (c : Command) : shownCommand? (commandLine c) = some c.line := by
  simp [shownCommand?, commandLine]

theorem shownCommand?_heading {line : String} (h : line.toList.head? ≠ some ' ') : shownCommand? line = none := by
  unfold shownCommand?
  split
  · rename_i hline
    rw [hline] at h
    exact (h rfl).elim
  · rfl

theorem readLines_heading {line : String} (h : line.toList.head? ≠ some ' ') (rest : List String) :
    readLines (line :: rest) = ([], (readLines rest).1 :: (readLines rest).2) := by
  rw [readLines, shownCommand?_heading h]

theorem readLines_commands (commands : List Command) (rest : List String) :
    readLines (commands.map commandLine ++ rest) =
      (commands.map (·.line) ++ (readLines rest).1, (readLines rest).2) := by
  induction commands with
  | nil => rfl
  | cons c more ih => simp [readLines, ih]

/-- A plan in lines is a heading, perhaps a line about ids that no VM owns, which shows no
    command either, and what is behind them. -/
theorem commandLists_unassigned (t : Topology) {heading : String} (h : heading.toList.head? ≠ some ' ')
    (rest : List String) :
    commandLists (heading :: (t.unassignedLines ++ rest)) =
      ((readLines rest).1 :: (readLines rest).2).filter (· ≠ []) := by
  unfold Topology.unassignedLines commandLists
  rw [readLines_heading h]
  split
  · rfl
  · rw [List.cons_append, List.nil_append, readLines_heading (by simp [toString])]
    simp

theorem ServerLaunch.commandLists_planLines (l : ServerLaunch) (nonempty : l.commands ≠ []) :
    commandLists l.planLines = [l.commands.map (·.line)] := by
  obtain ⟨heading, h, hlines⟩ : ∃ heading : String, heading.toList.head? ≠ some ' ' ∧
      l.planLines = heading :: (l.topology.unassignedLines ++ l.commands.map commandLine) := ⟨_, by simp [toString], rfl⟩
  have commands := readLines_commands l.commands []
  rw [List.append_nil] at commands
  rw [hlines, commandLists_unassigned _ h, commands]
  simp [readLines, nonempty]

namespace ClientLaunch

variable (l : ClientLaunch)

theorem readLines_targets (targets : List UInt32) :
    readLines (targets.flatMap l.targetLines) = ([], targets.map fun target => (l.commandsFor target).map (·.line)) := by
  induction targets with
  | nil => rfl
  | cons target rest ih =>
    rw [List.flatMap_cons, targetLines, List.cons_append, readLines_heading (by simp [toString]), readLines_commands, ih]
    simp

theorem commandLists_planLines :
    commandLists l.planLines = l.targets.map fun target => (l.commandsFor target).map (·.line) := by
  obtain ⟨heading, h, hlines⟩ : ∃ heading : String, heading.toList.head? ≠ some ' ' ∧
      l.planLines = heading :: (l.topology.unassignedLines ++ l.targets.flatMap l.targetLines) :=
    ⟨_, by simp [toString], rfl⟩
  rw [hlines, commandLists_unassigned _ h, readLines_targets, List.filter_cons_of_neg (by simp)]
  refine List.filter_eq_self.mpr fun commands hc => ?_
  obtain ⟨target, -, rfl⟩ := List.mem_map.mp hc
  simp [l.commandsFor_ne_nil target]

end ClientLaunch

/-! ## Structured values -/

namespace Json

def field? (name : String) : Json → Option Json
  | .record fields => fields.lookup name
  | _ => none

def items? : Json → Option (List Json)
  | .list items => some items
  | _ => none

def text? : Json → Option String
  | .text value => some value
  | _ => none

def number? : Json → Option Int
  | .number value => some value
  | _ => none

def commands? (j : Json) : Option (List String) := do
  (← (← j.field? "commands").items?).mapM text?

def sweep? (j : Json) : Option (List (Int × List String)) := do
  (← (← j.field? "sweep").items?).mapM fun entry => do
    return (← (← entry.field? "target").number?, ← entry.commands?)

end Json

theorem mapM_map_some {α β γ : Type} {f : α → β} {g : β → Option γ} {k : α → γ} (h : ∀ a, g (f a) = some (k a))
    (xs : List α) : (xs.map f).mapM g = some (xs.map k) := by
  induction xs with
  | nil => rfl
  | cons x rest ih => simp [h, ih]

theorem mapM_text?_commands (commands : List Command) :
    (commands.map fun c => Json.text c.line).mapM Json.text? = some (commands.map (·.line)) :=
  mapM_map_some (g := Json.text?) (k := fun c : Command => c.line) (fun _ => rfl) commands

theorem ServerLaunch.commands?_planJson (l : ServerLaunch) : l.planJson.commands? = some (l.commands.map (·.line)) :=
  mapM_text?_commands l.commands

theorem ClientLaunch.sweep?_planJson (l : ClientLaunch) : l.planJson.sweep? =
    some (l.targets.map fun target => ((target.toNat : Int), (l.commandsFor target).map (·.line))) := by
  refine mapM_map_some (fun target => ?_) l.targets
  have commands : (l.targetJson target).commands? = some ((l.commandsFor target).map (·.line)) :=
    mapM_text?_commands (l.commandsFor target)
  rw [commands]
  rfl

end Fleet

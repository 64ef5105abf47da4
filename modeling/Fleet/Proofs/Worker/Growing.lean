/-
  Fleet.Proofs.Worker.Growing — workers that are started one after the other on one machine,
  each when the one before has ended, and what becomes of their logs.

  The system is any that keeps to a few laws (`Os.Lawful`): directories are only added, a log is
  opened where its path leads, and a process writes to nothing but its two streams. It may refuse
  whatever it is asked for, and each start may meet another system.

  `Os.Spawned`: all that a start can come to. `Os.Spawned.leaves`: what one worker leaves in its log, and how it ends (`Os.Leaves`).
  `Serially.grows`: what all of them leave. Every file holds what it held before, then what was
  left in it, in the order of the starts (`Files.Grows`).
-/

import Fleet.Proofs.Run.Batch
import Fleet.Proofs.System.Growth
import Fleet.Worker.Spawn
import Mathlib.Data.List.Forall2

namespace Fleet.System

open Fleet.Shell Fleet.Text

/-! ## Systems -/

/-- A process that is started at `now` writes to nothing but its two streams. If it ends, it
    exits, and has done all it does by then. -/
structure Course.Proper (course : Course) (now : Instant) (output error : Stream) : Prop where
  own : ∀ e ∈ course.effects, e.2.Through output ∨ e.2.Through error
  ordered : course.effects.Pairwise (·.1 ≤ ·.1)
  ended : ∀ time ending, course.fate = .ends time ending →
    now ≤ time ∧ (∃ code, ending = .exited code) ∧ ∀ e ∈ course.effects, e.1 ≤ time

theorem Course.Proper.addedBy_eq {course : Course} {now : Instant} {place : Place}
    (proper : course.Proper now (.file place) (.file place)) (q : Place) :
    addedBy course.effects q = if q = place then addedBy course.effects place else [] := by
  by_cases same : q = place
  · rw [if_pos same, same]
  · rw [if_neg same]
    refine List.flatMap_eq_nil_iff.mpr fun e he => ?_
    have through : e.2.Through (.file place) := (proper.own e he).elim id id
    rw [through.addedTo_file q, if_neg same]

theorem Course.Proper.addedBy_eq_nil {course : Course} {now : Instant} (proper : course.Proper now .out .err) (q : Place) :
    addedBy course.effects q = [] :=
  List.flatMap_eq_nil_iff.mpr fun e he => Effect.Through.addedTo_nil (proper.own e he) q

namespace Os

/-- What a system keeps to, whatever it refuses: it has directories where there was nothing, it
    opens a log where the path leads, and its processes are proper. -/
structure Lawful (os : Os) (leads : Place → String → Place) : Prop where
  directories : ∀ (files : Files) (path : String), files.AddsDirectories (os.makeDirectories files path).1
  opened : ∀ (files : Files) (path : String) (next : Files) (place : Place), os.openAppend files path = .ok (next, place) →
    place = leads files.here path ∧ files.Opens place next
  proper : ∀ files now program args output error course, os.execute files now program args output error = .ok course →
    course.Proper now output error

theorem lawful_past {execute : Execute}
    (proper : ∀ files now program args output error course, execute files now program args output error = .ok course →
      course.Proper now output error) : (Os.over execute).Lawful Files.leads :=
  ⟨Files.makeDirectories_adds, fun _ _ _ _ h => Files.opens_of_openAppend h, proper⟩

variable (os : Os)

/-- The files when a log can be opened: the directories above it are made, if it has any. -/
inductive Ready (files : Files) (path : String) : Files → Prop
  | made {dir : String} {next : Files} : Path.parent? path = some dir → dir ≠ "" →
      os.makeDirectories files dir = (next, .ok ()) → Ready files path next
  | bare : (∀ dir ∈ Path.parent? path, dir = "") → Ready files path files

inductive Answers (files : Files) (path : String) : Files → Except Fault Place → Prop
  /-- The directories above it cannot be had. Some of them may have been made. -/
  | unreachable {dir : String} {next : Files} {fault : Fault} : Path.parent? path = some dir → dir ≠ "" →
      os.makeDirectories files dir = (next, .error fault) → Answers files path next (.error fault)
  | unopened {next : Files} {fault : Fault} : os.Ready files path next → os.openAppend next path = .error fault →
      Answers files path next (.error fault)
  | opened {ready next : Files} {place : Place} : os.Ready files path ready →
      os.openAppend ready path = .ok (next, place) → Answers files path next (.ok place)

/-- What a worker that is started at `now` leaves in its log, and how it ends. -/
inductive Leaves (files : Files) (now : Instant) (c : Command) : Left → Ending → Prop
  | unopened {path : String} {next : Files} {fault : Fault} : c.output = .append path →
      os.Answers files path next (.error fault) → Leaves files now c none (.notStarted fault.message)
  | refused {path : String} {next : Files} {place : Place} {fault : Fault} : c.output = .append path →
      os.Answers files path next (.ok place) →
      os.execute next now c.program c.args (.file place) (.file place) = .error fault →
      Leaves files now c (some (place, toBytes s!"pung-launch: failed to start {c.program}: {fault.message}\n"))
        (.notStarted fault.message)
  | ran {path : String} {next : Files} {place : Place} {course : Course} {time : Instant} {code : Option Int} :
      c.output = .append path → os.Answers files path next (.ok place) →
      os.execute next now c.program c.args (.file place) (.file place) = .ok course →
      course.fate = .ends time (.exited code) → Leaves files now c (some (place, addedBy course.effects place)) (.exited code)
  | refusedUnlogged {fault : Fault} : c.output = .inherit →
      os.execute files now c.program c.args .out .err = .error fault →
      Leaves files now c none (.notStarted fault.message)
  | ranUnlogged {course : Course} {time : Instant} {code : Option Int} : c.output = .inherit →
      os.execute files now c.program c.args .out .err = .ok course →
      course.fate = .ends time (.exited code) → Leaves files now c none (.exited code)

variable {os} {leads : Place → String → Place} {files next : Files} {path : String} {place : Place} {now : Instant}

theorem Ready.answers {ready : Files} {result : Except Fault Place} (h : os.Ready files path ready)
    (opening : os.openFile ready path = (next, result)) : os.Answers files path next result := by
  unfold openFile at opening
  cases hopen : os.openAppend ready path with
  | error fault =>
    rw [hopen] at opening
    cases opening
    exact .unopened h hopen
  | ok opened =>
    rw [hopen] at opening
    cases opening
    exact .opened h hopen

theorem answers_of_openLog {result : Except Fault Place} (h : os.openLog files path = (next, result)) :
    os.Answers files path next result := by
  unfold openLog at h
  cases hparent : Path.parent? path with
  | none =>
    rw [hparent] at h
    exact Ready.answers (.bare (by simp [hparent])) h
  | some dir =>
    rw [hparent] at h
    by_cases top : dir = ""
    · subst top
      exact Ready.answers (.bare (by simp [hparent])) h
    · simp only at h
      cases hmake : os.makeDirectories files dir with
      | mk made answer =>
        rw [hmake] at h
        cases answer with
        | error fault =>
          cases h
          exact .unreachable hparent top hmake
        | ok _ => exact Ready.answers (.made hparent top hmake) h

/-! ### What opening a log does to the files -/

theorem Lawful.makes (lawful : os.Lawful leads) {dir : String} {answer : Except Fault Unit}
    (h : os.makeDirectories files dir = (next, answer)) : files.AddsDirectories next := by
  have made := lawful.directories files dir
  rwa [h] at made

theorem Ready.adds (lawful : os.Lawful leads) (h : os.Ready files path next) : files.AddsDirectories next := by
  cases h with
  | made _ _ hmake => exact lawful.makes hmake
  | bare _ => exact .refl files

theorem Answers.grows_of_fault (lawful : os.Lawful leads) {fault : Fault} (h : os.Answers files path next (.error fault)) :
    files.Grows next [none] := by
  cases h with
  | unreachable _ _ hmake => exact (lawful.makes hmake).grows.none
  | unopened ready _ => exact (ready.adds lawful).grows.none

theorem Answers.grows_of_place (lawful : os.Lawful leads) (h : os.Answers files path next (.ok place)) :
    place = leads files.here path ∧ files.Grows next [some (place, [])] := by
  cases h with
  | opened ready hopen =>
    have made := ready.adds lawful
    obtain ⟨led, opens⟩ := lawful.opened _ _ _ _ hopen
    exact ⟨made.here ▸ led, made.grows.trans opens.grows⟩

/-! ### What a worker does to the machine -/

variable {m last : Machine} {c : Command} {time : Instant} {ending : Ending}

theorem adds_course (idle : m.pending = []) {course : Course} {output error : Stream}
    (proper : course.Proper now output error) (ends : course.fate = .ends time ending) :
    (((m.accept course).settle now).settle time).pending = [] ∧
      m.Adds (((m.accept course).settle now).settle time) (addedBy course.effects) := by
  have accepted : (m.accept course).pending = course.effects := by
    rw [Machine.accept, idle]
    rfl
  have plain : ∀ e ∈ course.effects, ∃ stream, e.2.Through stream :=
    fun e he => (proper.own e he).elim (⟨_, ·⟩) (⟨_, ·⟩)
  have past := (proper.ended time ending ends).2.2
  rw [← accepted] at past plain
  have done := Machine.adds_settle_settle (accepted ▸ proper.ordered) past plain now
  rw [accepted] at done
  exact ⟨done.1, done.2.here, done.2.places⟩

inductive Spawned (os : Os) (m : Machine) (now : Instant) (c : Command) : Machine → Start → Prop
  | unopened {path : String} {files : Files} {fault : Fault} : c.output = .append path →
      os.Answers m.files path files (.error fault) → Spawned os m now c { m with files } (refused now c fault)
  | refused {path : String} {files : Files} {place : Place} {fault : Fault} : c.output = .append path →
      os.Answers m.files path files (.ok place) →
      os.execute files now c.program c.args (.file place) (.file place) = .error fault →
      Spawned os m now c { m with files := files.append place (toBytes (failureLine c.program fault)) } (refused now c fault)
  | started {path : String} {files : Files} {place : Place} {course : Course} : c.output = .append path →
      os.Answers m.files path files (.ok place) →
      os.execute files now c.program c.args (.file place) (.file place) = .ok course →
      Spawned os m now c (({ m with files }.accept course).settle now) ⟨[.started c.role c.slot], course.fate⟩
  | refusedUnlogged {fault : Fault} : c.output = .inherit →
      os.execute m.files now c.program c.args .out .err = .error fault → Spawned os m now c m (refused now c fault)
  | startedUnlogged {course : Course} : c.output = .inherit →
      os.execute m.files now c.program c.args .out .err = .ok course →
      Spawned os m now c ((m.accept course).settle now) ⟨[.started c.role c.slot], course.fate⟩

theorem spawned_of_spawn {mid : Machine} {start : Start} (h : os.spawn m now c = (mid, start)) :
    os.Spawned (m.settle now) now c mid start := by
  unfold spawn at h
  cases hout : c.output with
  | inherit =>
    cases hexec : os.execute (m.settle now).files now c.program c.args .out .err with
    | error fault =>
      simp only [hout, hexec] at h
      cases h
      exact .refusedUnlogged hout hexec
    | ok course =>
      simp only [hout, hexec] at h
      cases h
      exact .startedUnlogged hout hexec
  | append path =>
    cases hopen : os.openLog (m.settle now).files path with
    | mk files answer =>
      have answers := answers_of_openLog hopen
      cases answer with
      | error fault =>
        simp only [hout, hopen] at h
        cases h
        exact .unopened hout answers
      | ok place =>
        cases hexec : os.execute files now c.program c.args (.file place) (.file place) with
        | error fault =>
          simp only [hout, hopen, hexec] at h
          cases h
          exact .refused hout answers hexec
        | ok course =>
          simp only [hout, hopen, hexec] at h
          cases h
          exact .started hout answers hexec

/-- What one worker does: it leaves in its log what it should and ends as it should, and the
    machine is idle again. -/
theorem Spawned.leaves {mid : Machine} {start : Start} (h : os.Spawned m now c mid start) (lawful : os.Lawful leads)
    (idle : m.pending = []) (ends : start.fate = .ends time ending) :
    now ≤ time ∧ (mid.settle time).pending = [] ∧
      ∃ left, os.Leaves m.files now c left ending ∧ m.files.Grows (mid.settle time).files [left] ∧
        ∀ place bytes, left = some (place, bytes) → ∃ path, c.output = .append path ∧ place = leads m.files.here path := by
  have still (files : Files) : ({ m with files := files } : Machine).settle now = { m with files := files } := by
    apply Machine.settle_idle
    exact idle
  cases h with
  | unopened hout answers =>
    cases ends
    rw [still]
    exact ⟨Nat.le_refl _, idle, none, .unopened hout answers, answers.grows_of_fault lawful, nofun⟩
  | refused hout answers hexec =>
    cases ends
    rw [still]
    obtain ⟨led, opened⟩ := answers.grows_of_place lawful
    refine ⟨Nat.le_refl _, idle, _, .refused hout answers hexec, ?_, ?_⟩
    · exact opened.write (Files.here_append ..) (Files.lookup?_append _ _ _)
    · rintro _ _ ⟨⟩
      exact ⟨_, hout, led⟩
  | @started path files place course hout answers hexec =>
    have proper := lawful.proper _ _ _ _ _ _ _ hexec
    obtain ⟨le, ⟨code, rfl⟩, -⟩ := proper.ended time ending ends
    have idle' : ({ m with files := files } : Machine).pending = [] := idle
    obtain ⟨past, adds⟩ := adds_course idle' proper ends
    obtain ⟨led, opened⟩ := answers.grows_of_place lawful
    refine ⟨le, past, _, .ran hout answers hexec ends, ?_, ?_⟩
    · refine opened.write adds.here fun q => ?_
      rw [adds.places, proper.addedBy_eq q]
    · rintro _ _ ⟨⟩
      exact ⟨_, hout, led⟩
  | refusedUnlogged hout hexec =>
    cases ends
    rw [Machine.settle_idle idle]
    exact ⟨Nat.le_refl _, idle, none, .refusedUnlogged hout hexec, (Files.Grows.refl _).none, nofun⟩
  | startedUnlogged hout hexec =>
    have proper := lawful.proper _ _ _ _ _ _ _ hexec
    obtain ⟨le, ⟨code, rfl⟩, -⟩ := proper.ended time ending ends
    obtain ⟨past, adds⟩ := adds_course idle proper ends
    refine ⟨le, past, none, .ranUnlogged hout hexec ends, (Files.grows_of_same adds.here fun q => ?_).none, nofun⟩
    rw [adds.places, proper.addedBy_eq_nil q]
    cases m.files.lookup? q <;> simp

/-! ### Waiting for a worker -/

theorem spawn_of_attend {events : List Event} (h : os.attend m now c = (last, events, some (time, ending))) :
    ∃ mid start, os.spawn m now c = (mid, start) ∧ start.fate = .ends time ending ∧ last = mid.settle time := by
  unfold attend at h
  cases hspawn : os.spawn m now c with
  | mk mid start =>
    rw [hspawn] at h
    cases hfate : start.fate with
    | never =>
      simp only [hfate] at h
      cases h
    | ends time ending =>
      simp only [hfate] at h
      cases h
      exact ⟨mid, start, rfl, hfate, rfl⟩

theorem batchWorkers_of_spawn {mid : Machine} {start : Start} (h : os.spawn m now c = (mid, start)) :
    os.host.batchWorkers now m [c] = [⟨c.slot, now, start.fate⟩] := by
  rw [Host.batchWorkers_cons]
  simp only [host, h]
  rfl

theorem attend_returns (os : Os) (m : Machine) (now : Instant) (c : Command) :
    (∃ next events time ending, os.attend m now c = (next, events, some (time, ending))) ∨
      ∃ files output error course, os.execute files now c.program c.args output error = .ok course ∧
        course.fate = .never := by
  cases hspawn : os.spawn m now c with
  | mk mid start =>
    cases hfate : start.fate with
    | ends time ending =>
      exact .inl ⟨mid.settle time, start.events, time, ending, by simp only [attend, hspawn, hfate]⟩
    | never =>
      cases spawned_of_spawn hspawn with
      | unopened | refused | refusedUnlogged => cases hfate
      | started _ _ hexec => exact .inr ⟨_, _, _, _, hexec, hfate⟩
      | startedUnlogged _ hexec => exact .inr ⟨_, _, _, _, hexec, hfate⟩

end Os

/-! ## Workers one after the other -/

/-- A worker in a row of them: the system and the machine that it met, when it was started, and
    when and how it ended. -/
structure Turn where
  os : Os
  before : Machine
  start : Instant
  command : Command
  time : Instant
  ending : Ending
  after : Machine

/-- Workers that are started one after the other, each when the one before has ended. -/
inductive Serially (leads : Place → String → Place) : Instant → Machine → List Turn → Instant → Machine → Prop
  | nil {now : Instant} {m : Machine} : Serially leads now m [] now m
  | cons {now clock : Instant} {m last : Machine} {turns : List Turn} {os : Os} {start time : Instant} {c : Command}
      {ending : Ending} {next : Machine} {events : List Event} : os.Lawful leads → now ≤ start →
      os.attend m start c = (next, events, some (time, ending)) → Serially leads time next turns clock last →
      Serially leads now m (⟨os, m, start, c, time, ending, next⟩ :: turns) clock last

/-- What is left of a turn: what the worker leaves in the log of its command and in no other
    file, and the worker, with its slot and its end. -/
structure Turn.Leaves (leads : String → Place) (t : Turn) (left : Left) : Prop where
  leaves : t.os.Leaves t.before.files t.start t.command left t.ending
  log : ∀ place bytes, left = some (place, bytes) →
    ∃ path, t.command.output = .append path ∧ place = leads path
  files : t.before.files.Grows t.after.files [left]
  worker : t.os.host.batchWorkers t.start t.before [t.command] = [⟨t.command.slot, t.start, .ends t.time t.ending⟩]

theorem Serially.grows {leads : Place → String → Place} {now clock : Instant} {m last : Machine} {turns : List Turn}
    (run : Serially leads now m turns clock last) (idle : m.pending = []) :
    now ≤ clock ∧ last.pending = [] ∧ ∃ lefts, List.Forall₂ (Turn.Leaves (leads m.files.here)) turns lefts ∧
      m.files.Grows last.files lefts := by
  induction run with
  | nil => exact ⟨Nat.le_refl _, idle, [], .nil, .refl _⟩
  | cons lawful le attended _ ih =>
    obtain ⟨mid, start, hspawn, ends, rfl⟩ := Os.spawn_of_attend attended
    have worker := Os.batchWorkers_of_spawn hspawn
    have spawned := Os.spawned_of_spawn hspawn
    rw [ends] at worker
    rw [Machine.settle_idle idle] at spawned
    obtain ⟨forward, idle', left, leaves, grows, log⟩ := spawned.leaves lawful idle ends
    obtain ⟨le', past, lefts, all, rest⟩ := ih idle'
    rw [grows.here] at all
    exact ⟨Nat.le_trans le (Nat.le_trans forward le'), past, left :: lefts,
      .cons ⟨leaves, log, grows, worker⟩ all, grows.trans rest⟩

/-! ## The logs -/

/-- Logs only grow, and by exactly what each worker leaves: nothing if its log cannot be opened,
    one line if it cannot be started, and its own output otherwise. The row goes on, whatever is
    started next, unless it is a process that never ends. -/
theorem logs_only_grow {leads : Place → String → Place} {now clock : Instant} {m last : Machine} {turns : List Turn}
    (idle : m.pending = []) (run : Serially leads now m turns clock last) :
    (∃ lefts : List Left, List.Forall₂ (Turn.Leaves (leads m.files.here)) turns lefts ∧
      ∀ q, m.files.Regular q → last.files.content? q =
        if leftAt q lefts = [] then m.files.content? q
        else some ((m.files.content? q).getD [] ++ (leftAt q lefts).flatten)) ∧
    ∀ (os : Os) (start : Instant) (c : Command),
      (∃ next events time ending, os.attend last start c = (next, events, some (time, ending))) ∨
        ∃ files output error course, os.execute files start c.program c.args output error = .ok course ∧
          course.fate = .never := by
  obtain ⟨-, -, lefts, leaves, grows⟩ := run.grows idle
  exact ⟨⟨lefts, leaves, grows.content⟩, fun os start c => os.attend_returns last start c⟩

/-! ### Four workers and one log -/

def writing (bytes : Bytes) : Stream → List Effect
  | .out => [.out bytes]
  | .err => [.err bytes]
  | .file place => [.append place bytes]
  | .capture => []

def echoOnly : Execute := fun _ now program arguments output _ =>
  if program = "echo" then
    .ok ⟨(writing (toBytes (" ".intercalate arguments ++ "\n")) output).map (now, ·), .ends (now + 1) (.exited (some 0))⟩
  else .error .noEntry

theorem echoOnly_proper (files : Files) (now : Instant) (program : String) (args : List String) (output error : Stream)
    (course : Course) (h : echoOnly files now program args output error = .ok course) : course.Proper now output error := by
  unfold echoOnly at h
  split at h
  · cases h
    refine ⟨?_, ?_, ?_⟩
    · cases output <;> simp [writing, Effect.Through]
    · cases output <;> simp [writing]
    · rintro _ _ ⟨⟩
      cases output <;> simp [writing]
  · cases h

def outOfFiles : Os :=
  { Os.over echoOnly with openAppend := fun _ _ => .error (.other "Too many open files" (some 24)) }

theorem outOfFiles_lawful : outOfFiles.Lawful Files.leads :=
  ⟨Files.makeDirectories_adds, nofun, echoOnly_proper⟩

def oneLog (content : Bytes) : Machine :=
  { files := ⟨[(["work"], .directory), (["work", "run.log"], .file content false)], ["work"]⟩ }

theorem parent?_log : Path.parent? "run.log" = some "" := by decide +kernel

theorem openAppend_log (content : Bytes) :
    (oneLog content).files.openAppend "run.log" = .ok ((oneLog content).files, ["work", "run.log"]) := by
  have names : Files.names "run.log" = ["run.log"] := by decide +kernel
  have relative : Path.isAbsolute "run.log" = false := by decide +kernel
  have short : "run.log".utf8ByteSize = 7 := by decide +kernel
  have follow : (oneLog content).files.follow "run.log" = .ok ["work", "run.log"] := by
    simp [Files.follow, names, relative, short, Files.maxPath, oneLog, Files.walk, Files.lookup?, Files.maxName]
  have bare : "run.log".endsWith "/" = false := by decide +kernel
  simp only [Files.openAppend, follow, bind, Except.bind, bare]
  rfl

theorem openLog_log (content : Bytes) : (Os.over echoOnly).openLog (oneLog content).files "run.log" =
    ((oneLog content).files, .ok ["work", "run.log"]) := by
  simp only [Os.openLog, Os.openFile, parent?_log, Os.over, openAppend_log]

theorem append_log (content bytes : Bytes) :
    (oneLog content).files.append ["work", "run.log"] bytes = (oneLog (content ++ bytes)).files := rfl

def logged (slot : UInt32) (program : String) (args : List String) : Command :=
  ⟨.client, slot, program, args, .append "run.log"⟩

theorem attend_echo (content : Bytes) (now : Instant) (slot : UInt32) (args : List String) :
    (Os.over echoOnly).attend (oneLog content) now (logged slot "echo" args) =
      (oneLog (content ++ toBytes (" ".intercalate args ++ "\n")), [.started .client slot],
        some (now + 1, .exited (some 0))) := by
  have idle : (oneLog content).settle now = oneLog content := Machine.settle_idle rfl now
  simp only [Os.attend, Os.spawn, logged, idle, openLog_log]
  have course : ((oneLog content).accept ⟨[(now, .append ["work", "run.log"] (toBytes (" ".intercalate args ++ "\n")))],
      .ends (now + 1) (.exited (some 0))⟩).settle now = oneLog (content ++ toBytes (" ".intercalate args ++ "\n")) := by
    rw [Machine.settle_eq_play (by simp [Machine.accept, oneLog])]
    simp only [Machine.accept, oneLog, List.nil_append, reduceCtorEq, ↓reduceIte, List.filterMap_cons_none,
      List.filterMap_nil, List.min?_nil, Nat.lt_irrefl, decide_false, Bool.false_eq_true, not_false_eq_true,
      List.filter_cons_of_neg, List.filter_nil, Std.le_refl, decide_true, List.filter_cons_of_pos]
    rfl
  simp only [Os.over, echoOnly, ↓reduceIte, writing, List.map_cons, List.map_nil, course, Prod.mk.injEq, and_true]
  exact Machine.settle_idle rfl _

theorem attend_missing (content : Bytes) (now : Instant) (slot : UInt32) :
    (Os.over echoOnly).attend (oneLog content) now (logged slot "pung-client" []) =
      (oneLog (content ++ toBytes "pung-launch: failed to start pung-client: No such file or directory (os error 2)\n"),
        [.startFailed .client slot "pung-client" "No such file or directory (os error 2)"],
        some (now, .notStarted "No such file or directory (os error 2)")) := by
  have idle : (oneLog content).settle now = oneLog content := Machine.settle_idle rfl now
  simp only [Os.attend, Os.spawn, logged, idle, openLog_log]
  have message : Fault.noEntry.message = "No such file or directory (os error 2)" := by decide +kernel
  simp only [Os.over, echoOnly, String.reduceEq, ↓reduceIte, append_log, refused, message, Prod.mk.injEq, and_true]
  exact Machine.settle_idle rfl _

theorem attend_outOfFiles (content : Bytes) (now : Instant) (slot : UInt32) (args : List String) :
    outOfFiles.attend (oneLog content) now (logged slot "echo" args) =
      (oneLog content, [.startFailed .client slot "echo" "Too many open files (os error 24)"],
        some (now, .notStarted "Too many open files (os error 24)")) := by
  have idle : (oneLog content).settle now = oneLog content := Machine.settle_idle rfl now
  simp only [Os.attend, Os.spawn, logged, idle, Os.openLog, Os.openFile, parent?_log]
  have message : (Fault.other "Too many open files" (some 24)).message = "Too many open files (os error 24)" := by
    decide +kernel
  simp only [outOfFiles, refused, message, Prod.mk.injEq, and_true]
  exact Machine.settle_idle rfl _

/-- Two workers with output, one that is not there and one whose log cannot be opened, in one log
    that was not empty. -/
theorem logs_only_grow_mixed :
    ∃ turns last, Serially Files.leads 0 (oneLog (toBytes "old\n")) turns 2 last ∧
      turns.map (fun t => (t.command.slot, t.ending)) =
        [(0, .exited (some 0)), (1, .notStarted "No such file or directory (os error 2)"),
          (2, .notStarted "Too many open files (os error 24)"), (3, .exited (some 0))] ∧
      last.files.content? ["work", "run.log"] = some (toBytes ("old\none\n" ++
        "pung-launch: failed to start pung-client: No such file or directory (os error 2)\n" ++ "two words\n")) ∧
      ∃ lefts : List Left, List.Forall₂ (Turn.Leaves (Files.leads ["work"])) turns lefts ∧
        last.files.content? ["work", "run.log"] =
          if leftAt ["work", "run.log"] lefts = [] then some (toBytes "old\n")
          else some (toBytes "old\n" ++ (leftAt ["work", "run.log"] lefts).flatten) := by
  have lawful : (Os.over echoOnly).Lawful Files.leads := Os.lawful_past echoOnly_proper
  have run : Serially Files.leads 0 (oneLog (toBytes "old\n")) _ 2 _ :=
    .cons lawful (Nat.le_refl 0) (attend_echo _ 0 0 ["one"]) <|
    .cons lawful (Nat.le_refl 1) (attend_missing _ 1 1) <|
    .cons outOfFiles_lawful (Nat.le_refl 1) (attend_outOfFiles _ 1 2 ["lost"]) <|
    .cons lawful (Nat.le_refl 1) (attend_echo _ 1 3 ["two", "words"]) .nil
  obtain ⟨⟨lefts, leaves, content⟩, -⟩ := logs_only_grow rfl run
  have regular : (oneLog (toBytes "old\n")).files.Regular ["work", "run.log"] := by
    rintro e ⟨⟩
    exact .inr ⟨_, _, rfl⟩
  exact ⟨_, _, run, rfl, by decide +kernel, lefts, leaves, content _ regular⟩

end Fleet.System

/-
  Fleet.Worker.Spawn — starting a worker as a process. Its log is opened first, with the
  directories above it; if the process then cannot be started, the log says so in one
  line where the worker's own output would have stood.

  It is the system that makes directories, opens logs and starts processes, or refuses to
  (`Os`). `Os.over` is one that does so wherever its files let it.
-/

import Fleet.Run.Batch
import Fleet.System.Machine

namespace Fleet

open Fleet.System Fleet.Text

/-! ## Systems -/

/-- What a system does when it is asked for directories, for a log to write to its end and
    for a process. Directories that were made before it refuses one stay. -/
structure System.Os where
  makeDirectories : Files → (path : String) → Files × Except Fault Unit
  openAppend : Files → (path : String) → Except Fault (Files × Place)
  execute : Execute

def System.Os.over (execute : Execute) : Os := ⟨Files.makeDirectories, Files.openAppend, execute⟩

/-! ## Starting -/

def failureLine (program : String) (fault : Fault) : String :=
  s!"pung-launch: failed to start {program}: {fault.message}\n"

def refused (now : Instant) (c : Command) (fault : Fault) : Start where
  events := [.startFailed c.role c.slot c.program fault.message]
  fate := .ends now (.notStarted fault.message)

namespace System.Os

variable (os : Os)

def openFile (files : Files) (path : String) : Files × Except Fault Place :=
  match os.openAppend files path with
  | .ok (files, place) => (files, .ok place)
  | .error fault => (files, .error fault)

def openLog (files : Files) (path : String) : Files × Except Fault Place :=
  let opened : Files × Except Fault Unit := match Path.parent? path with
    | none | some "" => (files, .ok ())
    | some dir => os.makeDirectories files dir
  match opened with
  | (files, .error fault) => (files, .error fault)
  | (files, .ok ()) => os.openFile files path

def spawn (m : Machine) (now : Instant) (c : Command) : Machine × Start :=
  let m := m.settle now
  let started (m : Machine) (course : Course) : Machine × Start :=
    ((m.accept course).settle now, ⟨[.started c.role c.slot], course.fate⟩)
  match c.output with
  | .inherit =>
    match os.execute m.files now c.program c.args .out .err with
    | .ok course => started m course
    | .error fault => (m, refused now c fault)
  | .append path =>
    match os.openLog m.files path with
    | (files, .error fault) => ({ m with files }, refused now c fault)
    | (files, .ok place) =>
      match os.execute files now c.program c.args (.file place) (.file place) with
      | .ok course => started { m with files } course
      | .error fault =>
        ({ m with files := files.append place (toBytes (failureLine c.program fault)) }, refused now c fault)

/-- Start a worker and wait for its end: the machine then, what was said at the start, and
    when and how the worker ended, if it did. -/
def attend (m : Machine) (now : Instant) (c : Command) : Machine × List Event × Option (Instant × Ending) :=
  let (m, start) := os.spawn m now c
  match start.fate with
  | .never => (m, start.events, none)
  | .ends time ending => (m.settle time, start.events, some (time, ending))

def host : Host Machine where
  start := os.spawn
  asked := Machine.asked

end System.Os

namespace System.Machine

def attend (execute : Execute) : Machine → Instant → Command → Machine × List Event × Option (Instant × Ending) :=
  (Os.over execute).attend

def host (execute : Execute) : Host Machine := (Os.over execute).host

end System.Machine

end Fleet

/-
  Fleet.Shell.Preview — the launcher as a program that scripts can call. Only a call that
  starts no worker is followed: a plan, a dry run, or one that fails before either.
-/

import Fleet.Reply
import Fleet.Run.Session
import Fleet.Settings.Load
import Fleet.Settings.Resolve
import Fleet.Shell.Process

namespace Fleet.Shell

namespace Process

variable (p : Process)

def reply (r : Reply) : Process × Flow := ((p.print r.out).complain r.err).done r.code

/-- A dry run prints as time goes by. -/
def rehearse (ran : Ran Unit SweepSummary) : Process × Flow :=
  let printed := ran.acts.foldl (fun q act =>
    match act with
    | .print line => q.print (line ++ "\n")
    | .start w => { q with clock := p.clock + w.started }
    | .say _ => q) p
  let q := { printed with clock := p.clock + ran.clock }
  match ran.result with
  | .ok _ => q.done 0
  | .error halt => (q.complain (halt.message ++ "\n")).done 101

def afterBuilding {α : Type} (role : Role) (built : Logged LaunchError α) (handle : α → Process × Flow) :
    Process × Flow :=
  match built.result with
  | .ok launch => handle launch
  | .error error => p.reply (.ofFailure built.events (.launch role error))

/-- Call the launcher, if that starts no worker. -/
def launcher? (words : List OsText) : Option (Process × Flow) :=
  match Call.parse words with
  | .error stop => some (p.reply (.ofStop stop))
  | .ok call =>
    match FileSettings.load p.files call.config with
    | .error error => some (p.reply (.ofFailure [] (.settings error)))
    | .ok file =>
      match call.task with
      | .planServers flags format =>
        some (p.afterBuilding .server (flags.launch file Default.localIp) fun l => p.reply (.ofPlan [] (l.plan format)))
      | .planClients flags format =>
        some (p.afterBuilding .client (flags.launch file) fun l => p.reply (.ofPlan [] (.ok (l.plan format))))
      | .servers flags run =>
        if run.dryRun then
          some (p.afterBuilding .server (flags.launch file Default.localIp) fun l =>
            p.rehearse (l.perform true Host.dryRun (run.pacing file) none ()))
        else none
      | .clients flags run =>
        if run.dryRun then
          some (p.afterBuilding .client (flags.launch file) fun l =>
            p.rehearse (l.perform true Host.dryRun (run.pacing file) none ()))
        else none

end Process

end Fleet.Shell

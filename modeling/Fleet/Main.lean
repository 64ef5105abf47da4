/-
  Fleet.Main — the launcher at the command line. What it needs of the files around it is
  put on a machine, the launcher runs there, and its answer is printed: events that the log
  filter lets through and complaints to standard error, all else to standard output. Files
  that workers wrote are kept.
-/

import Fleet.CommandLine.LogFilter
import Fleet.Launcher
import Mathlib

namespace Fleet.Main

open Fleet.System

/-- Put a file on the machine, or a directory, if there is one by that path and the machine
    has none of its own. -/
def bringIn (m : Machine) (path : String) : IO Machine := do
  if (m.files.find path).toOption.isSome then return m
  match ← (IO.FS.readBinFile path).toBaseIO with
  | .ok bytes => return m.provide path (.file bytes.toList true)
  | .error (.inappropriateType ..) => return m.provide path .directory
  | .error _ => return m

def takeOut (path : String) (content : Text.Bytes) : IO Unit := do
  if let some directory := Path.parent? path then
    unless directory.isEmpty do IO.FS.createDirAll directory
  IO.FS.writeBinFile path ⟨content.toArray⟩

/-- The IPv4 address that the machine's name stands for. -/
def localIp : IO String := do
  let resolve : IO (Option String) := do
    let name ← Std.Internal.UV.System.osGetHostname
    if name.isEmpty then return none
    let addresses ← (Std.Async.DNS.getAddrInfo name "" (some .ipv4)).block
    return addresses[0]?.map toString
  return ((← resolve.toBaseIO).toOption.join).getD Default.localIp

def launch (words : List OsText) : IO UInt32 := do
  let filter := LogFilter.ofSetting (← IO.getEnv "RUST_LOG")
  let config := (Call.parse words).toOption.bind (·.config)
  let withSettings ← config.toList.foldlM bringIn Machine.fresh
  let machine ← (Launcher.program? withSettings words).toList.foldlM bringIn withSettings
  let outcome := Launcher.run (← localIp) machine words
  let out ← IO.getStdout
  let err ← IO.getStderr
  for event in outcome.events.filter filter.admits do
    err.putStrLn event.line
  out.putStr outcome.out
  err.putStr outcome.err
  for (path, content) in outcome.machine.workFiles do
    unless machine.workFiles.contains (path, content) do takeOut path content
  return outcome.code.toUInt32

end Fleet.Main

def main (words : List String) : IO UInt32 := Fleet.Main.launch (words.map .text)

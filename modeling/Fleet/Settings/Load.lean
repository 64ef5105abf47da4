/-
  Fleet.Settings.Load — the settings file of a machine. Without one, every setting is
  open.
-/

import Fleet.Settings.File
import Fleet.System.Files

namespace Fleet

def FileSettings.load (files : System.Files) : Option String → Except SettingError FileSettings
  | none => .ok {}
  | some path =>
    match files.readText path with
    | .ok text => FileSettings.parse text
    | .error fault => .error (.unreadable path fault.message)

end Fleet

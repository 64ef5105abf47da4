/-
  Fleet.Settings.Error — what can be wrong with a setting, wherever it comes from: a
  settings file that cannot be read or does not fit, a word that is no scheme, a value out
  of its range.
-/

import Fleet.Toml.Fault

namespace Fleet

inductive SettingError where
  | unreadable (path cause : String)
  | illFormed
  | misfit (report : Toml.Report)
  | unknownRetrieval (word : String)
  | unknownOptimization (word : String)
  | optimizationNeedsRate (opt : Optimization) (rate : UInt32)
  | zeroRate
  | noTargets
  | zeroTrials
  deriving DecidableEq, Repr

namespace SettingError

def invalid (field reason : String) : String := s!"invalid value for {field}: {reason}"

def message : SettingError → String
  | .unreadable path cause => s!"failed to read config file {path}: {cause}"
  | .illFormed => "failed to parse config file: TOML parse error"
  | .misfit report => "failed to parse config file: " ++ report.message
  | .unknownRetrieval word => s!"invalid retrieval type '{word}' (expected e, b, or t)"
  | .unknownOptimization word => s!"invalid optimization '{word}' (expected p, h2, or h4)"
  | .optimizationNeedsRate opt rate =>
    s!"multi-retrieval optimization '{opt.flag}' requires a retrieval rate > 1 (got {rate})"
  | .zeroRate => invalid "rate" "must be at least 1"
  | .noTargets => invalid "num" "at least one message-count target is required"
  | .zeroTrials => invalid "trial" "must be at least 1"

def chain (e : SettingError) : List String :=
  e.message :: match e with
    | .unreadable _ cause => [cause]
    | .illFormed => ["TOML parse error"]
    | .misfit report => [report.message]
    | _ => []

end SettingError

def Retrieval.parse (word : String) : Except SettingError Retrieval :=
  match ofFlag? word with
  | some r => .ok r
  | none => .error (.unknownRetrieval word)

def Optimization.parse (word : String) : Except SettingError Optimization :=
  match ofFlag? word with
  | some o => .ok o
  | none => .error (.unknownOptimization word)

end Fleet

/-
  Fleet.Failure — why the launcher gives up before anything starts, and the report of it
  (`Failure.report`): what was being done, and under it what went wrong, cause below cause.
-/

import Fleet.Plan

namespace Fleet

inductive Failure where
  | settings (error : SettingError)
  | launch (role : Role) (error : LaunchError)
  | plan (error : PlanError)
  deriving DecidableEq, Repr

namespace Failure

/-- What was being done when it went wrong. Of a plan only the error itself is told. -/
def context : Failure → String
  | .settings _ => "failed to load config"
  | .launch role _ => s!"invalid {role.label} launch configuration"
  | .plan error => error.message

def causes : Failure → List String
  | .settings error => error.chain
  | .launch _ error => error.chain
  | .plan _ => []

def chain (f : Failure) : List String := f.context :: f.causes

/-! ## The report -/

/-- A text with `gap` between its lines. -/
def indentRest (gap text : String) : String := gap.intercalate (text.splitOn "\n")

def numberedCause (number : Nat) (cause : String) : String :=
  let label := toString number
  let blanks := String.ofList (List.replicate (5 - label.length) ' ')
  blanks ++ label ++ ": " ++ indentRest "\n       " cause

def causesText : List String → List String
  | [] => []
  | [cause] => ["    " ++ indentRest "\n    " cause]
  | causes => causes.zipIdx.map fun (cause, number) => numberedCause number cause

def causesReport (causes : List String) : List String :=
  if causes = [] then [] else "" :: "Caused by:" :: causesText causes

/-- The report in lines. A cause of several lines is indented throughout. -/
def report (f : Failure) : List String := (("Error: " ++ f.context) :: causesReport f.causes).flatMap (·.splitOn "\n")

end Failure

end Fleet

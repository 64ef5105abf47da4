/-
  Fleet.Run.Clock — time as a launch sees it, in whole milliseconds since the launcher
  started, and how a launch is paced (`Pacing`).

  The clock has an end. A deadline beyond it cannot be set (`Clock.deadline?`); a pause
  beyond it is cut to thirty years (`Clock.pauseEnd`).
-/

namespace Fleet

/-- Milliseconds since the launcher started. -/
abbrev Instant := Nat

namespace Clock

/-- The first instant that the clock cannot show: its seconds are a signed word of 64 bits. -/
def horizon : Instant := (UInt64.size / 2 - 1) * 1000

def thirtyYears : Nat := 30 * 365 * 24 * 60 * 60 * 1000

def deadline? (now : Instant) (length : Nat) : Option Instant :=
  if now + length < horizon then some (now + length) else none

def pauseEnd (now : Instant) (length : Nat) : Instant := (deadline? now length).getD (now + thirtyYears)

end Clock

/-- The earlier of two instants, either of which may never come. -/
def earlier? (a b : Option Instant) : Option Instant :=
  match a, b with
  | some a, some b => some (min a b)
  | some a, none => some a
  | none, b => b

/-- How a launch is paced, in milliseconds. -/
structure Pacing where
  settle : Nat := 1000
  timeout : Option Nat := none
  deriving DecidableEq, Repr, Inhabited

end Fleet

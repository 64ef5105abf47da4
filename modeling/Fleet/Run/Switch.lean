/-
  Fleet.Run.Switch — the shutdown flag, who may still move it, and the raises that are
  under way. Letting go of the flag leaves it where it is, and lets raises under way come.
-/

import Fleet.Run.Clock

namespace Fleet

structure Switch where
  isUp : Bool := false
  /-- Whether anyone can still move the flag. -/
  held : Bool := true
  coming : List Instant := []
  deriving DecidableEq, Repr, Inhabited

namespace Switch

def set (s : Switch) (value : Bool) : Switch := if s.held then { s with isUp := value } else s

def raiseAt (s : Switch) (time : Instant) : Switch :=
  if s.held then { s with coming := s.coming ++ [time] } else s

def release (s : Switch) : Switch := { s with held := false }

/-- From when on the flag is up, if nobody moves it. -/
def raisedFrom (s : Switch) (now : Instant) : Option Instant := if s.isUp then some now else s.coming.min?

def advance (s : Switch) (clock : Instant) : Switch where
  isUp := s.isUp || s.coming.any (· ≤ clock)
  held := s.held
  coming := s.coming.filter (clock < ·)

end Switch

end Fleet

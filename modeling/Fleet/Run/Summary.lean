/-
  Fleet.Run.Summary — what came of a batch of workers, and the totals over every batch
  of one launch. Counters are 32 bits wide, as they are reported.
-/

namespace Fleet

/-- The counts of one batch. `failed` counts workers that exited with another code than
    0, were killed by a signal or could not be waited for; `startFailed` those that never
    ran; `timedOut` those still running when the batch was abandoned at its deadline. -/
structure BatchSummary where
  launched : UInt32 := 0
  succeeded : UInt32 := 0
  failed : UInt32 := 0
  startFailed : UInt32 := 0
  timedOut : UInt32 := 0
  interrupted : Bool := false
  deriving DecidableEq, Repr, Inhabited

structure SweepSummary where
  batches : UInt32 := 0
  launched : UInt32 := 0
  succeeded : UInt32 := 0
  failed : UInt32 := 0
  startFailed : UInt32 := 0
  timedOut : UInt32 := 0
  interrupted : Bool := false
  deriving DecidableEq, Repr, Inhabited

def SweepSummary.absorb (total : SweepSummary) (batch : BatchSummary) : SweepSummary where
  batches := total.batches + 1
  launched := total.launched + batch.launched
  succeeded := total.succeeded + batch.succeeded
  failed := total.failed + batch.failed
  startFailed := total.startFailed + batch.startFailed
  timedOut := total.timedOut + batch.timedOut
  interrupted := total.interrupted || batch.interrupted

end Fleet

-- SUMMARY: The verdict of a probe, and the status of many endpoints.
import ZonePool.KeyMap

/-!
# Verdicts

A probe finds an endpoint available or not. A `StatusMap` holds the last
verdict on each endpoint of a probe cycle.
-/

namespace ZonePool

inductive Verdict where
  | available
  | unavailable
  deriving DecidableEq, Repr

namespace Verdict

def ofBool (up : Bool) : Verdict :=
  if up then .available else .unavailable

def isAvailable : Verdict → Bool
  | .available => true
  | .unavailable => false

def name : Verdict → String
  | .available => "available"
  | .unavailable => "unavailable"

end Verdict

/-- The last verdict on each endpoint. -/
abbrev StatusMap := KeyMap Verdict

namespace StatusMap

/-- Whether an endpoint is on record as available. -/
def isUp (status : StatusMap) (endpoint : String) : Bool :=
  match status.get? endpoint with
  | some v => v.isAvailable
  | none => false

/-- Whether some endpoint is available. -/
def anyUp (status : StatusMap) : Bool :=
  status.values.any (·.isAvailable)

end StatusMap

end ZonePool

-- SUMMARY: Readiness, read off the history of statuses.
import ZonePool.Verdict
import ZonePool.Store

/-!
# Readiness

A pool is ready after two statuses in a row with an available endpoint, has
failed after three in a row without one, and is otherwise undecided. The
history is scanned from its oldest status on, with a count of how long the
current run of each kind is.
-/

namespace ZonePool

inductive Readiness where
  | success
  | failed
  | indeterminate
  deriving DecidableEq, Repr

namespace Readiness

def name : Readiness → String
  | .success => "success"
  | .failed => "failed"
  | .indeterminate => "indeterminate"

/-- The lengths of the two runs that end at the last status seen; one of them is zero. -/
structure Runs where
  up : Nat := 0
  down : Nat := 0
  deriving DecidableEq, Repr

/-- Account for one more status. -/
def Runs.see (r : Runs) (status : StatusMap) : Runs :=
  if status.anyUp then ⟨r.up + 1, 0⟩ else ⟨0, r.down + 1⟩

/-- Judge a history that has its oldest status first. -/
def ofHistory (history : List StatusMap) : Readiness :=
  if history.length < 2 then .indeterminate
  else
    let runs := history.foldl Runs.see {}
    if 2 ≤ runs.up then .success
    else if runs.down = historyLimit then .failed
    else .indeterminate

end Readiness

end ZonePool

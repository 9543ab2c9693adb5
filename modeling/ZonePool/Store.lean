-- SUMMARY: Tiers, current status, status history and lifecycle of a pool.
import ZonePool.Tier
import ZonePool.Verdict

/-!
# The store

What a pool knows: the members of its tiers, the status that the last probe
cycle committed, the last few such statuses, and whether it still runs. Every
operation is one step on the whole value. A probe cycle takes a snapshot of the
tiers first and commits its verdicts later, so any number of other operations
may come between the two.
-/

namespace ZonePool

/-- How many statuses are kept for readiness. -/
def historyLimit : Nat := 3

/-- From idle to running to stopped; a stopped pool stays stopped. -/
inductive Lifecycle where
  | idle
  | running
  | stopped
  deriving DecidableEq, Repr

namespace Lifecycle

def name : Lifecycle → String
  | .idle => "idle"
  | .running => "running"
  | .stopped => "stopped"

end Lifecycle

/-- The state behind a pool; the history has the oldest status first. -/
structure Store where
  tiers : Tiers
  status : StatusMap
  history : List StatusMap
  lifecycle : Lifecycle

namespace Store

/-! ## Members -/

/-- A store that has seen no probe, with the given `Default` and `DiffAz` members. -/
def create (default diffAz : List String) : Store where
  tiers := ⟨distinct default, [], distinct diffAz⟩
  status := .empty
  history := []
  lifecycle := .idle

/-- Replace `Default`, empty the zone tiers and forget every status. -/
def reset (s : Store) (addresses : List String) : Store :=
  { s with tiers := ⟨distinct addresses, [], []⟩, status := .empty, history := [] }

/-- Replace the zone tiers that are given and keep the others. -/
def assign (s : Store) (sameAz diffAz : Option (List String)) : Store :=
  { s with tiers :=
    { s.tiers with sameAz := sameAz.getD s.tiers.sameAz, diffAz := diffAz.getD s.tiers.diffAz } }

/-- The endpoints that a probe cycle starting now is to probe. -/
def snapshot (s : Store) : List String :=
  s.tiers.union

/-! ## Statuses -/

/-- The last `historyLimit` statuses. -/
def trim (history : List StatusMap) : List StatusMap :=
  history.drop (history.length - historyLimit)

/-- Install the verdicts of a probe cycle on the endpoints that are still members of some tier.
A stopped store takes nothing and answers `false`. -/
def commit (s : Store) (status : StatusMap) : Bool × Store :=
  if s.lifecycle = .stopped then (false, s)
  else
    let kept := status.restrict (s.tiers.members.contains ·)
    (true, { s with status := kept, history := trim (s.history ++ [kept]) })

/-! ## Lifecycle -/

/-- From idle to running; `true` when this call made the step. -/
def start (s : Store) : Bool × Store :=
  match s.lifecycle with
  | .idle => (true, { s with lifecycle := .running })
  | _ => (false, s)

/-- Stop for good; `true` when this call made the step. -/
def stop (s : Store) : Bool × Store :=
  match s.lifecycle with
  | .stopped => (false, s)
  | _ => (true, { s with lifecycle := .stopped })

end Store

end ZonePool

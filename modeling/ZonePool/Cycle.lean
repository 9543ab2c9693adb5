-- SUMMARY: Probe cycles: a snapshot, its probes one by one, and the commit.
import ZonePool.Metrics
import ZonePool.Probe
import ZonePool.Store

/-!
# Probe cycles

A cycle takes a snapshot of the tiers, probes each endpoint of it once and
commits all verdicts as one status. While it is under way it is a value of its
own, apart from the store, so that anything may happen to the store between the
snapshot and the commit.
-/

namespace ZonePool

/-- A cycle under way: the endpoints still to probe, and the verdicts so far, oldest first. -/
structure Cycle where
  pending : List String
  verdicts : List (String × Verdict) := []
  deriving DecidableEq, Repr

namespace Cycle

/-! ## Probing -/

/-- Begin a cycle on the current members. -/
def begin (s : Store) : Cycle :=
  ⟨s.snapshot, []⟩

/-- Probe the next endpoint. -/
def probeNext (p : Probe) (c : Cycle) (n : Network) : Cycle × Network :=
  match c.pending with
  | [] => (c, n)
  | endpoint :: rest =>
    let (v, n) := p.verdict endpoint n
    (⟨rest, c.verdicts ++ [(endpoint, v)]⟩, n)

/-- Probe some endpoints one after another. -/
def probeAll (p : Probe) : List String → Network → List (String × Verdict) × Network
  | [], n => ([], n)
  | endpoint :: rest, n =>
    let (v, n) := p.verdict endpoint n
    let (vs, n) := probeAll p rest n
    ((endpoint, v) :: vs, n)

/-- Probe all that is left. -/
def run (p : Probe) (c : Cycle) (n : Network) : Cycle × Network :=
  let (vs, n) := probeAll p c.pending n
  (⟨[], c.verdicts ++ vs⟩, n)

/-- Probe until silent peers hold up all `slots` probes that may be under way at once, or nothing is
left; `true` when some peer is silent. -/
def runUntilHeld (p : Probe) : Nat → List String → Network → Bool × List (String × Verdict) ×
    List String × Network
  | _, [], n => (false, [], [], n)
  | slots, endpoint :: rest, n =>
    match p.check endpoint n with
    | (.ok _, n) =>
      let (held, vs, left, n) := runUntilHeld p slots rest n
      (held, (endpoint, .available) :: vs, left, n)
    | (.error failure, n) =>
      if failure.isTimeout then
        if slots ≤ 1 then (true, [(endpoint, .unavailable)], rest, n)
        else
          let (_, vs, left, n) := runUntilHeld p (slots - 1) rest n
          (true, (endpoint, .unavailable) :: vs, left, n)
      else
        let (held, vs, left, n) := runUntilHeld p slots rest n
        (held, (endpoint, .unavailable) :: vs, left, n)

/-- Probe until the cycle hangs on silent peers, or to its end; `true` when it hangs. -/
def hold (p : Probe) (slots : Nat) (c : Cycle) (n : Network) : Bool × Cycle × Network :=
  let (held, vs, left, n) := runUntilHeld p slots c.pending n
  (held, ⟨left, c.verdicts ++ vs⟩, n)

/-! ## Committing -/

/-- The status that the verdicts so far make. -/
def status (c : Cycle) : StatusMap :=
  .ofList c.verdicts

/-- How many endpoints were found available. -/
def available (c : Cycle) : Nat :=
  c.verdicts.countP (·.2.isAvailable)

/-- Count the probes and commit the verdicts; `true` unless the store is stopped. -/
def commit (c : Cycle) (s : Store) (m : Metrics) : Bool × Store × Metrics :=
  let m := m.countCycle (c.verdicts.map (·.2))
  match s.commit c.status with
  | (true, s) => (true, s, m.noteAvailable c.available)
  | (false, s) => (false, s, m)

end Cycle

end ZonePool

-- SUMMARY: The monitor of a store: its first cycle, its periodic loop, and stopping.
import ZonePool.Cycle
import ZonePool.Interval

/-!
# The monitor

A monitor probes the members of a store. Starting it runs a first cycle and
then spawns a loop that runs one more cycle each time the interval has passed.
Only the first start does anything, and stopping is for good: a cycle under way
finishes its probes, but a stopped store takes nothing any more, and the loop
ends at its next tick. Starting and ticking are cut into the steps between
which other callers may act.
-/

namespace ZonePool

/-- The periodic loop. -/
inductive Loop where
  | absent
  /-- Until the next tick. -/
  | waiting
  | probing (cycle : Cycle)
  | ended
  deriving DecidableEq, Repr

structure Monitor where
  store : Store
  probe : Probe
  interval : Span
  /-- How many probes may be under way at once; zero counts as one. -/
  concurrency : Nat
  /-- Whether a stop was requested. -/
  cancelled : Bool := false
  /-- The first cycle while it is under way. -/
  first : Option Cycle := none
  loop : Loop := .absent
  metrics : Metrics := {}

namespace Monitor

/-- A monitor that has not started. -/
def create (store : Store) (probe : Probe) (interval : Span) (concurrency : Nat) : Monitor where
  store
  probe
  interval := CheckInterval.sanitize interval
  concurrency := max concurrency 1

/-! ## Steps -/

/-- Commit the verdicts of a cycle; `true` when the store took them. -/
def commit (m : Monitor) (c : Cycle) : Bool × Monitor :=
  let (installed, store, metrics) := c.commit m.store m.metrics
  (installed, { m with store, metrics })

/-- The first half of starting: begin the first cycle. `true` for the one call that does so. -/
def beginStart (m : Monitor) : Bool × Monitor :=
  match m.store.start with
  | (true, store) => (true, { m with store, first := some (Cycle.begin store) })
  | (false, _) => (false, m)

/-- Probe one endpoint of the first cycle. -/
def probeFirst (m : Monitor) (n : Network) : Monitor × Network :=
  match m.first with
  | none => (m, n)
  | some c =>
    let (c, n) := c.probeNext m.probe n
    ({ m with first := some c }, n)

/-- The second half of starting, once the first cycle has no endpoint left: commit it, and spawn
the loop unless a stop was requested. `true` when the loop is spawned. -/
def endStart (m : Monitor) : Bool × Monitor :=
  match m.first with
  | some c =>
    if c.pending.isEmpty then
      let (_, m) := m.commit c
      if m.cancelled then (false, { m with first := none })
      else (true, { m with first := none, loop := .waiting })
    else (false, m)
  | none => (false, m)

/-- The interval has passed: the waiting loop begins a cycle, or ends when a stop was requested.
`true` when a cycle begins. -/
def tick (m : Monitor) : Bool × Monitor :=
  match m.loop with
  | .waiting =>
    if m.cancelled then (false, { m with loop := .ended })
    else (true, { m with loop := .probing (Cycle.begin m.store) })
  | _ => (false, m)

/-- Probe one endpoint of the loop's cycle. -/
def probeLoop (m : Monitor) (n : Network) : Monitor × Network :=
  match m.loop with
  | .probing c =>
    let (c, n) := c.probeNext m.probe n
    ({ m with loop := .probing c }, n)
  | _ => (m, n)

/-- Commit the loop's cycle once it has no endpoint left; `true` when the store took it. -/
def endTick (m : Monitor) : Bool × Monitor :=
  match m.loop with
  | .probing c =>
    if c.pending.isEmpty then
      let (installed, m) := m.commit c
      (installed, { m with loop := .waiting })
    else (false, m)
  | _ => (false, m)

/-- Request the end. `true` for the one call that stops the store. -/
def stop (m : Monitor) : Bool × Monitor :=
  let (stopped, store) := m.store.stop
  (stopped, { m with store, cancelled := true })

/-- Wait for the loop to end, which it does after a stop. -/
def join (m : Monitor) : Monitor :=
  match m.loop with
  | .waiting => if m.cancelled then { m with loop := .ended } else m
  | _ => m

/-! ## Whole runs -/

/-- A whole cycle outside the loop; `true` when the store took it. -/
def runCycle (m : Monitor) (n : Network) : Bool × Monitor × Network :=
  let (c, n) := (Cycle.begin m.store).run m.probe n
  let (installed, m) := m.commit c
  (installed, m, n)

/-- Start, as far as the first cycle gets before it hangs on silent peers; `some true` when it hangs,
`none` when this call starts nothing. -/
def holdStart (m : Monitor) (n : Network) : Option Bool × Monitor × Network :=
  match m.beginStart with
  | (false, m) => (none, m, n)
  | (true, m) =>
    match m.first with
    | none => (some false, m, n)
    | some c =>
      let (held, c, n) := c.hold m.probe m.concurrency n
      (some held, { m with first := some c }, n)

/-- Finish the first cycle and with it the start; `true` when the loop is spawned. -/
def finishStart (m : Monitor) (n : Network) : Bool × Monitor × Network :=
  match m.first with
  | none => (false, m, n)
  | some c =>
    let (c, n) := c.run m.probe n
    let (spawned, m) := { m with first := some c }.endStart
    (spawned, m, n)

/-- Start with nothing else going on; `true` when this call starts the monitor. -/
def start (m : Monitor) (n : Network) : Bool × Monitor × Network :=
  match m.holdStart n with
  | (none, m, n) => (false, m, n)
  | (some _, m, n) =>
    let (_, m, n) := m.finishStart n
    (true, m, n)

/-- Start, and stop while the first cycle hangs on silent peers, or after it when it does not hang;
what the start and the stop answer. -/
def startThenStop (m : Monitor) (n : Network) : Bool × Bool × Monitor × Network :=
  match m.holdStart n with
  | (some true, m, n) =>
    let (stopped, m) := m.stop
    let (_, m, n) := m.finishStart n
    (true, stopped, m, n)
  | (some false, m, n) =>
    let (_, m, n) := m.finishStart n
    let (stopped, m) := m.stop
    (true, stopped, m, n)
  | (none, m, n) =>
    let (stopped, m) := m.stop
    (false, stopped, m, n)

/-- Let the interval pass once, as far as the cycle gets before it hangs on silent peers; `some true`
when it hangs, `none` when no cycle begins. -/
def holdTick (m : Monitor) (n : Network) : Option Bool × Monitor × Network :=
  match m.tick with
  | (false, m) => (none, m, n)
  | (true, m) =>
    match m.loop with
    | .probing c =>
      let (held, c, n) := c.hold m.probe m.concurrency n
      (some held, { m with loop := .probing c }, n)
    | _ => (some false, m, n)

/-- Finish the loop's cycle; `true` when the store took it. -/
def finishTick (m : Monitor) (n : Network) : Bool × Monitor × Network :=
  match m.loop with
  | .probing c =>
    let (c, n) := c.run m.probe n
    let (installed, m) := { m with loop := .probing c }.endTick
    (installed, m, n)
  | _ => (false, m, n)

end Monitor

end ZonePool

-- SUMMARY: The atomic actions on a pool, and what each of them changes.
import ZonePool.Pool
import ZonePool.Proofs.Store

/-!
# Actions on a pool

Callers, the first cycle and the periodic loop act on a pool in any order. An
`Action` is one atomic step of one of them. This module says what every action
does to each part of a pool; what holds of all actions follows from these
equations without another look at the operations behind them.
-/

namespace ZonePool.Pool

/-! ## Actions -/

inductive Action where
  | reset (addresses : List String)
  | resync (instances : List Instance)
  /-- A round of resync that got no instances from the directory. -/
  | missResync
  | pick
  | close
  /-- Wait for the loop to end. -/
  | join
  /-- The first half of starting: the first cycle begins. -/
  | start
  /-- The first cycle probes its next endpoint in some network. -/
  | probeFirst (n : Network)
  /-- The first cycle commits and the loop is spawned. -/
  | endStart
  /-- The interval passes. -/
  | tick
  /-- The loop's cycle probes its next endpoint in some network. -/
  | probeLoop (n : Network)
  /-- The loop's cycle commits. -/
  | endTick
  /-- A cycle commits that began whenever it did and whose probes ended however they did. -/
  | commit (cycle : Cycle)

def withMonitor (p : Pool) (monitor : Monitor) : Pool :=
  { p with monitor }

/-- Commit the verdicts of a cycle; `true` when the store took them. -/
def commit (p : Pool) (c : Cycle) : Bool × Pool :=
  let (installed, monitor) := p.monitor.commit c
  (installed, p.withMonitor monitor)

def act (p : Pool) : Action → Pool
  | .reset addresses => p.reset addresses
  | .resync instances => (p.resync instances).2
  | .missResync => p.countResync .fetchError
  | .pick => p.pick.2
  | .close => p.close
  | .join => p.withMonitor p.monitor.join
  | .start => p.withMonitor p.monitor.beginStart.2
  | .probeFirst n => p.withMonitor (p.monitor.probeFirst n).1
  | .endStart => p.withMonitor p.monitor.endStart.2
  | .tick => p.withMonitor p.monitor.tick.2
  | .probeLoop n => p.withMonitor (p.monitor.probeLoop n).1
  | .endTick => p.withMonitor p.monitor.endTick.2
  | .commit c => (p.commit c).2

/-! ## What each action does -/

/-- The commit that a cycle makes when it has no endpoint left. -/
def commitEvents (c : Cycle) : List Store.Event :=
  if c.pending.isEmpty then [.commit c.status] else []

/-- What an action does to the store. -/
def events (p : Pool) : Action → List Store.Event
  | .reset addresses => [.reset addresses]
  | .resync instances =>
    let zones := Zones.ofInstances instances
    if zones.isEmpty then [] else [.resync zones]
  | .close => [.stop]
  | .start => [.start]
  | .endStart => p.monitor.first.toList.flatMap commitEvents
  | .endTick =>
    match p.monitor.loop with
    | .probing c => commitEvents c
    | _ => []
  | .commit c => [.commit c.status]
  | .missResync | .pick | .join | .probeFirst _ | .tick | .probeLoop _ => []

/-- The first cycle after an action. -/
def firstAfter (p : Pool) : Action → Option Cycle
  | .start =>
    if p.store.lifecycle = .idle then some (.begin p.store.start.2) else p.monitor.first
  | .probeFirst n => p.monitor.first.map fun c => (c.probeNext p.monitor.probe n).1
  | .endStart => p.monitor.first.filter (!·.pending.isEmpty)
  | _ => p.monitor.first

/-- The loop after an action. -/
def loopAfter (p : Pool) (a : Action) : Loop :=
  match a, p.monitor.loop with
  | .endStart, loop =>
    if p.monitor.first.any (·.pending.isEmpty) && !p.monitor.cancelled then .waiting else loop
  | .tick, .waiting => if p.monitor.cancelled then .ended else .probing (.begin p.store)
  | .probeLoop n, .probing c => .probing (c.probeNext p.monitor.probe n).1
  | .endTick, .probing c => if c.pending.isEmpty then .waiting else .probing c
  | .join, .waiting => if p.monitor.cancelled then .ended else .waiting
  | _, loop => loop

/-- Whether a stop was requested by the end of an action. -/
def cancelledAfter (p : Pool) : Action → Bool
  | .close => true
  | _ => p.monitor.cancelled

/-- The parts that an action changes; beside them it may count in the metrics. -/
def Follows (p : Pool) (a : Action) (m : Monitor) : Prop :=
  ∃ metrics, m = { p.monitor with
    store := p.store.run (p.events a), cancelled := p.cancelledAfter a,
    first := p.firstAfter a, loop := p.loopAfter a, metrics }

/-! ## Actions keep to it -/

theorem commit_monitor (m : Monitor) (c : Cycle) :
    ∃ metrics, m.commit c =
      ((m.store.commit c.status).1, { m with store := (m.store.commit c.status).2, metrics }) := by
  refine ⟨(m.commit c).2.metrics, ?_⟩
  simp only [Monitor.commit, Cycle.commit]
  split
  · next h => rw [h]
  · next h => rw [h]

theorem store_commit (p : Pool) (c : Cycle) :
    (p.commit c).2.store = (p.store.commit c.status).2 := by
  obtain ⟨metrics, h⟩ := commit_monitor p.monitor c
  rw [commit, h]
  rfl

theorem fst_commit (p : Pool) (c : Cycle) : (p.commit c).1 = (p.store.commit c.status).1 := by
  obtain ⟨metrics, h⟩ := commit_monitor p.monitor c
  rw [commit, h]
  rfl

private theorem follows_resync (p : Pool) (instances : List Instance) :
    p.Follows (.resync instances) (p.resync instances).2.monitor := by
  by_cases hempty : (Zones.ofInstances instances).isEmpty = true
  · rw [resync, if_pos hempty, Follows, events, if_pos hempty]
    exact ⟨_, rfl⟩
  · rw [resync, if_neg hempty, Follows, events, if_neg hempty]
    exact ⟨_, rfl⟩

private theorem follows_join (p : Pool) : p.Follows .join p.monitor.join := by
  obtain ⟨⟨store, probe, interval, concurrency, cancelled, first, loop, metrics⟩, turn⟩ := p
  cases loop with
  | waiting => cases cancelled <;> exact ⟨metrics, rfl⟩
  | absent | probing | ended => exact ⟨metrics, rfl⟩

private theorem follows_start (p : Pool) : p.Follows .start p.monitor.beginStart.2 := by
  obtain ⟨⟨⟨tiers, status, history, lifecycle⟩, probe, interval, concurrency, cancelled, first, loop,
    metrics⟩, turn⟩ := p
  cases lifecycle <;> exact ⟨metrics, rfl⟩

private theorem follows_probeFirst (p : Pool) (n : Network) :
    p.Follows (.probeFirst n) (p.monitor.probeFirst n).1 := by
  obtain ⟨⟨store, probe, interval, concurrency, cancelled, first, loop, metrics⟩, turn⟩ := p
  cases first <;> exact ⟨metrics, rfl⟩

private theorem follows_endStart (p : Pool) : p.Follows .endStart p.monitor.endStart.2 := by
  obtain ⟨⟨store, probe, interval, concurrency, cancelled, first, loop, metrics⟩, turn⟩ := p
  cases first with
  | none => exact ⟨metrics, rfl⟩
  | some c =>
    obtain ⟨pending, verdicts⟩ := c
    cases pending with
    | cons endpoint rest => exact ⟨metrics, rfl⟩
    | nil =>
      obtain ⟨counted, hcommit⟩ := commit_monitor ⟨store, probe, interval, concurrency, cancelled,
        some ⟨[], verdicts⟩, loop, metrics⟩ ⟨[], verdicts⟩
      refine ⟨counted, ?_⟩
      simp only [Monitor.endStart, List.isEmpty_nil, if_true, hcommit]
      cases cancelled <;> rfl

private theorem follows_tick (p : Pool) : p.Follows .tick p.monitor.tick.2 := by
  obtain ⟨⟨store, probe, interval, concurrency, cancelled, first, loop, metrics⟩, turn⟩ := p
  cases loop with
  | waiting => cases cancelled <;> exact ⟨metrics, rfl⟩
  | absent | probing | ended => exact ⟨metrics, rfl⟩

private theorem follows_probeLoop (p : Pool) (n : Network) :
    p.Follows (.probeLoop n) (p.monitor.probeLoop n).1 := by
  obtain ⟨⟨store, probe, interval, concurrency, cancelled, first, loop, metrics⟩, turn⟩ := p
  cases loop <;> exact ⟨metrics, rfl⟩

private theorem follows_endTick (p : Pool) : p.Follows .endTick p.monitor.endTick.2 := by
  obtain ⟨⟨store, probe, interval, concurrency, cancelled, first, loop, metrics⟩, turn⟩ := p
  cases loop with
  | absent | waiting | ended => exact ⟨metrics, rfl⟩
  | probing c =>
    obtain ⟨pending, verdicts⟩ := c
    cases pending with
    | cons endpoint rest => exact ⟨metrics, rfl⟩
    | nil =>
      obtain ⟨counted, hcommit⟩ := commit_monitor ⟨store, probe, interval, concurrency, cancelled,
        first, .probing ⟨[], verdicts⟩, metrics⟩ ⟨[], verdicts⟩
      refine ⟨counted, ?_⟩
      simp only [Monitor.endTick, List.isEmpty_nil, if_true, hcommit]
      rfl

/-- All that an action does to the monitor. -/
theorem follows_act (p : Pool) (a : Action) : p.Follows a (p.act a).monitor := by
  cases a with
  | reset addresses => exact ⟨_, rfl⟩
  | resync instances => exact follows_resync p instances
  | missResync => exact ⟨_, rfl⟩
  | pick => exact ⟨_, rfl⟩
  | close => exact ⟨_, rfl⟩
  | join => exact follows_join p
  | start => exact follows_start p
  | probeFirst n => exact follows_probeFirst p n
  | endStart => exact follows_endStart p
  | tick => exact follows_tick p
  | probeLoop n => exact follows_probeLoop p n
  | endTick => exact follows_endTick p
  | commit c =>
    obtain ⟨metrics, h⟩ := commit_monitor p.monitor c
    refine ⟨metrics, ?_⟩
    rw [act, commit, h]
    rfl

/-! ## One part at a time -/

theorem store_act (p : Pool) (a : Action) : (p.act a).store = p.store.run (p.events a) := by
  obtain ⟨metrics, h⟩ := follows_act p a
  rw [store, h]

theorem probe_act (p : Pool) (a : Action) : (p.act a).monitor.probe = p.monitor.probe := by
  obtain ⟨metrics, h⟩ := follows_act p a
  rw [h]

theorem first_act (p : Pool) (a : Action) : (p.act a).monitor.first = p.firstAfter a := by
  obtain ⟨metrics, h⟩ := follows_act p a
  rw [h]

theorem loop_act (p : Pool) (a : Action) : (p.act a).monitor.loop = p.loopAfter a := by
  obtain ⟨metrics, h⟩ := follows_act p a
  rw [h]

end ZonePool.Pool

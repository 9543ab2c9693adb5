-- SUMMARY: The periodic loop of a pool goes on until the pool is closed.
import ZonePool.Proofs.Metrics
import ZonePool.Proofs.Pool.Run

/-!
# The loop goes on

A start with nothing under way ends with a loop that waits, and so does every
period after it, whatever the probes find. In between anyone may act on the pool:
only a close takes the loop off its course.
-/

namespace ZonePool

/-! ## Commits -/

theorem Cycle.cycles_commit (c : Cycle) (s : Store) (m : Metrics) :
    (c.commit s m).2.2.cycles = m.cycles + 1 := by
  rw [metrics_commit]
  split <;> rfl

namespace Monitor

theorem lifecycle_commit (m : Monitor) (c : Cycle) :
    (m.commit c).2.store.lifecycle = m.store.lifecycle := by
  obtain ⟨metrics, h⟩ := Pool.commit_monitor m c
  rw [h]
  exact Store.lifecycle_commit _ _

theorem cancelled_commit (m : Monitor) (c : Cycle) : (m.commit c).2.cancelled = m.cancelled := rfl

/-! ## Between two cycles -/

/-- The loop waits for its next tick, nothing else is under way, and nobody has asked for an end. -/
structure Resting (m : Monitor) : Prop where
  running : m.store.lifecycle = .running
  live : m.cancelled = false
  first : m.first = none
  loop : m.loop = .waiting

/-- The monitor that a finished cycle leaves behind: the loop waits. -/
def rest (m : Monitor) (c : Cycle) : Monitor :=
  { (m.commit c).2 with first := none, loop := .waiting }

theorem resting_rest {m : Monitor} (hrunning : m.store.lifecycle = .running)
    (hlive : m.cancelled = false) (c : Cycle) : (m.rest c).Resting where
  running := (m.lifecycle_commit c).trans hrunning
  live := hlive
  first := rfl
  loop := rfl

theorem cycles_rest (m : Monitor) (c : Cycle) : (m.rest c).metrics.cycles = m.metrics.cycles + 1 :=
  c.cycles_commit m.store m.metrics

theorem resyncs_rest (m : Monitor) (c : Cycle) : (m.rest c).metrics.resyncs = m.metrics.resyncs :=
  c.resyncs_commit m.store m.metrics

/-- A start with nothing else going on runs a cycle and leaves the loop waiting. -/
theorem exists_rest_of_start {m : Monitor} (hidle : m.store.lifecycle = .idle)
    (hlive : m.cancelled = false) (n : Network) :
    ∃ c, (m.start n).2.1 = { m with store := { m.store with lifecycle := .running } }.rest c := by
  obtain ⟨store, probe, interval, concurrency, cancelled, first, loop, metrics⟩ := m
  cases hlive
  simp only at hidle
  simp only [start, holdStart, beginStart, Store.start_of_idle hidle, finishStart, endStart,
    Cycle.run, List.isEmpty_nil, if_true]
  exact ⟨_, rfl⟩

/-- So does a period: it runs a cycle and leaves the loop waiting again. -/
theorem Resting.exists_rest {m : Monitor} (h : m.Resting) (n : Network) :
    ∃ c, ((m.holdTick n).2.1.finishTick (m.holdTick n).2.2).2.1 = m.rest c := by
  obtain ⟨store, probe, interval, concurrency, cancelled, first, loop, metrics⟩ := m
  obtain ⟨-, hlive, hfirst, hloop⟩ := h
  cases hlive
  cases hfirst
  cases hloop
  simp only [holdTick, tick, finishTick, endTick, Cycle.run, List.isEmpty_nil, if_true,
    Bool.false_eq_true, if_false]
  exact ⟨_, rfl⟩

end Monitor

namespace Pool

/-! ## At any time -/

/-- The loop waits or probes, and nobody has asked for an end. -/
structure Looping (p : Pool) : Prop where
  running : p.store.lifecycle = .running
  live : p.monitor.cancelled = false
  loop : p.monitor.loop = .waiting ∨ ∃ c, p.monitor.loop = .probing c

theorem running_of_events {p : Pool} (h : p.store.lifecycle = .running) {a : Action}
    (hopen : a ≠ .close) : (p.store.run (p.events a)).lifecycle = .running := by
  have hcommit : ∀ c : Cycle, (p.store.run (commitEvents c)).lifecycle = .running := by
    intro c
    rw [commitEvents]
    split
    · exact (Store.lifecycle_commit _ _).trans h
    · exact h
  cases a with
  | close => exact absurd rfl hopen
  | resync instances =>
    rw [events]
    split <;> exact h
  | start => exact (congrArg Store.lifecycle (Store.start_eq p.store)).trans (by simp [h])
  | endStart =>
    rw [events]
    cases p.monitor.first with
    | none => exact h
    | some c => simpa using hcommit c
  | endTick =>
    rw [events]
    split
    · exact hcommit _
    · exact h
  | commit c => exact (Store.lifecycle_commit _ _).trans h
  | reset | missResync | pick | join | probeFirst | tick | probeLoop => exact h

/-- Nothing but a close takes the loop off its course. -/
theorem looping_act {p : Pool} (h : p.Looping) {a : Action} (hopen : a ≠ .close) :
    (p.act a).Looping where
  running := by rw [store_act, running_of_events h.running hopen]
  live := by
    obtain ⟨metrics, hact⟩ := follows_act p a
    rw [hact]
    cases a with
    | close => exact absurd rfl hopen
    | reset | resync | missResync | pick | join | start | probeFirst | endStart | tick | probeLoop
    | endTick | commit => exact h.live
  loop := by
    rw [loop_act]
    rcases h.loop with hloop | ⟨c, hloop⟩
    · cases a with
      | close => exact absurd rfl hopen
      | reset | resync | missResync | pick | join | start | probeFirst | endStart | tick | probeLoop
      | endTick | commit => simp [loopAfter, hloop, h.live]
    · cases a with
      | close => exact absurd rfl hopen
      | endStart | endTick =>
        simp only [loopAfter, hloop]
        split <;> simp
      | reset | resync | missResync | pick | join | start | probeFirst | tick | probeLoop
      | commit => simp [loopAfter, hloop]

theorem looping_run {p : Pool} (h : p.Looping) {actions : List Action}
    (hopen : ∀ a ∈ actions, a ≠ .close) : (p.run actions).Looping := by
  induction actions generalizing p with
  | nil => exact h
  | cons a actions ih =>
    obtain ⟨hfirst, hrest⟩ := List.forall_mem_cons.1 hopen
    exact ih (looping_act h hfirst) hrest

theorem looping_of_resting {p : Pool} (h : p.monitor.Resting) : p.Looping :=
  ⟨h.running, h.live, .inl h.loop⟩

/-- After a close the loop ends, once a cycle under way has been probed, in whatever network. -/
theorem Looping.ends {p : Pool} (h : p.Looping) (n : Network) :
    (p.close.monitor.finishTick n).2.1.join.loop = .ended := by
  obtain ⟨⟨store, probe, interval, concurrency, cancelled, first, loop, metrics⟩, turn⟩ := p
  rcases h.loop with hloop | ⟨c, hloop⟩ <;> cases hloop
  · rfl
  · simp only [close, Monitor.stop, Monitor.finishTick, Cycle.run, Monitor.endTick, List.isEmpty_nil,
      if_true, Monitor.join, Monitor.cancelled_commit]

/-- With the loop at rest it ends at once. -/
theorem loop_shutdown {p : Pool} (h : p.monitor.Resting) : p.shutdown.monitor.loop = .ended := by
  have hloop : p.monitor.stop.2.loop = .waiting := h.loop
  simp only [shutdown, Monitor.join, hloop]
  rfl

theorem lifecycle_close (p : Pool) : p.close.store.lifecycle = .stopped :=
  congrArg Store.lifecycle (Store.stop_eq p.store)

/-! ## Launching -/

theorem resting_launch (addresses : List String) (options : PoolOptions) (env : Environment)
    (n : Network) : (launch addresses options env n).1.monitor.Resting := by
  obtain ⟨c, h⟩ := Monitor.exists_rest_of_start (m := (create addresses options env).monitor) rfl rfl n
  have hlaunch : (launch addresses options env n).1.monitor =
      ((create addresses options env).monitor.start n).2.1 := rfl
  rw [hlaunch, h]
  exact Monitor.resting_rest rfl rfl c

end Pool

end ZonePool

-- SUMMARY: The cycles that a monitor runs itself are cycles in flight.
import ZonePool.Proofs.Pool.InFlight

/-!
# The monitor's own cycles

A monitor keeps the first cycle in one place and the loop's cycle in another.
While a cycle is in its place, no action does more to it than probe its next
endpoint. So a run of the pool during which the cycle stays there is a run of
the cycle in flight, and what its commit does is known.
-/

namespace ZonePool

/-- The places for a cycle in a monitor. -/
inductive Place where
  | first
  | loop

/-- The cycle in a place. -/
def Monitor.cycleAt (m : Monitor) : Place → Option Cycle
  | .first => m.first
  | .loop =>
    match m.loop with
    | .probing c => some c
    | _ => none

namespace Monitor

theorem cycleAt_loop_eq_some {m : Monitor} {c : Cycle} :
    m.cycleAt .loop = some c ↔ m.loop = .probing c := by
  cases hloop : m.loop with
  | probing d => simp [cycleAt, hloop]
  | absent | waiting | ended => simp [cycleAt, hloop]

end Monitor

namespace Pool

/-! ## One action -/

/-- Of a cycle that an action leaves in its place, the action probes the next endpoint or nothing. -/
theorem cycleAt_act {p : Pool} (hstarted : p.store.lifecycle ≠ .idle) {place : Place}
    {c c' : Cycle} (hbefore : p.monitor.cycleAt place = some c) {a : Action}
    (hafter : (p.act a).monitor.cycleAt place = some c') :
    c' = c ∨ ∃ n, c' = (c.probeNext p.monitor.probe n).1 := by
  cases place with
  | first =>
    simp only [Monitor.cycleAt, first_act] at hbefore hafter
    cases a with
    | start =>
      rw [firstAfter, if_neg hstarted, hbefore] at hafter
      exact .inl (Option.some.inj hafter).symm
    | probeFirst n =>
      rw [firstAfter, hbefore] at hafter
      exact .inr ⟨n, (Option.some.inj hafter).symm⟩
    | endStart =>
      rw [firstAfter, hbefore] at hafter
      obtain ⟨heq, -⟩ := Option.filter_eq_some_iff.1 hafter
      exact .inl (Option.some.inj heq).symm
    | reset | resync | missResync | pick | close | join | tick | probeLoop | endTick | commit =>
      exact .inl (Option.some.inj (hbefore.symm.trans hafter)).symm
  | loop =>
    rw [Monitor.cycleAt_loop_eq_some] at hbefore hafter
    rw [loop_act] at hafter
    cases a with
    | probeLoop n =>
      simp only [loopAfter, hbefore] at hafter
      exact .inr ⟨n, (Loop.probing.inj hafter).symm⟩
    | endTick =>
      simp only [loopAfter, hbefore] at hafter
      split at hafter
      · cases hafter
      · exact .inl (Loop.probing.inj hafter).symm
    | endStart =>
      simp only [loopAfter, hbefore] at hafter
      split at hafter
      · cases hafter
      · exact .inl (Loop.probing.inj hafter).symm
    | reset | resync | missResync | pick | close | join | start | probeFirst | tick | commit =>
      simp only [loopAfter, hbefore] at hafter
      exact .inl (Loop.probing.inj hafter).symm

theorem started_act {p : Pool} (h : p.store.lifecycle ≠ .idle) (a : Action) :
    (p.act a).store.lifecycle ≠ .idle := by
  rw [store_act]
  exact Store.started_run h _

/-- One action is one move, or two when it probes the cycle. -/
theorem exists_moves_of_act {p : Pool} (hstarted : p.store.lifecycle ≠ .idle) {place : Place}
    {c c' : Cycle} (hbefore : p.monitor.cycleAt place = some c) {a : Action}
    (hafter : (p.act a).monitor.cycleAt place = some c') :
    ∃ moves, moves.filterMap Move.action? = [a] ∧
      (InFlight.mk p c).run moves = ⟨p.act a, c'⟩ := by
  rcases cycleAt_act hstarted hbefore hafter with rfl | ⟨n, rfl⟩
  · exact ⟨[.act a], rfl, rfl⟩
  · cases hpending : c.pending with
    | nil =>
      refine ⟨[.act a], rfl, ?_⟩
      simp [InFlight.move, Cycle.probeNext, hpending]
    | cons endpoint rest =>
      refine ⟨[.act a, .probe endpoint n], rfl, ?_⟩
      simp [InFlight.move, probe_act, Cycle.probeNext_eq_probeOne _ hpending]

/-! ## Whole runs -/

/-- A run during which a cycle stays in its place is a run of that cycle in flight. -/
theorem exists_moves_of_run {p : Pool} (hstarted : p.store.lifecycle ≠ .idle) {place : Place}
    {c c' : Cycle} (hbegin : p.monitor.cycleAt place = some c) {actions : List Action}
    (hstays : ∀ before, before <+: actions →
      ((p.run before).monitor.cycleAt place).isSome = true)
    (hend : (p.run actions).monitor.cycleAt place = some c') :
    ∃ moves, moves.filterMap Move.action? = actions ∧
      (InFlight.mk p c).run moves = ⟨p.run actions, c'⟩ := by
  induction actions generalizing p c with
  | nil =>
    rw [run_nil, hbegin] at hend
    cases hend
    exact ⟨[], rfl, rfl⟩
  | cons a actions ih =>
    obtain ⟨d, hd⟩ := Option.isSome_iff_exists.1 (hstays [a] (by simp))
    obtain ⟨one, hone, hact⟩ := exists_moves_of_act hstarted hbegin hd
    have hlater : ∀ before, before <+: actions →
        (((p.act a).run before).monitor.cycleAt place).isSome = true := fun before hprefix =>
      hstays (a :: before) (List.cons_prefix_cons.2 ⟨rfl, hprefix⟩)
    obtain ⟨moves, hmoves, hrun⟩ := ih (started_act hstarted a) hd hlater hend
    refine ⟨one ++ moves, by simp [hone, hmoves], ?_⟩
    rw [InFlight.run_append, hact, hrun, run_cons]

/-! ## The ends of a cycle -/

theorem cycleAt_start {p : Pool} (h : p.store.lifecycle = .idle) :
    (p.act .start).monitor.cycleAt .first = some (.begin (p.act .start).store) := by
  rw [Monitor.cycleAt, first_act, store_act, firstAfter, if_pos h]
  rfl

theorem cycleAt_tick {p : Pool} (hloop : p.monitor.loop = .waiting)
    (hcancelled : p.monitor.cancelled = false) :
    (p.act .tick).monitor.cycleAt .loop = some (.begin (p.act .tick).store) := by
  rw [Monitor.cycleAt_loop_eq_some, loop_act, store_act]
  simp [loopAfter, events, hloop, hcancelled]

/-- The action by which the cycle in a place commits. -/
def finishAt : Place → Action
  | .first => .endStart
  | .loop => .endTick

theorem store_finishAt {p : Pool} {place : Place} {c : Cycle}
    (h : p.monitor.cycleAt place = some c) (hdone : c.pending = []) :
    (p.act (finishAt place)).store = (p.commit c).2.store := by
  have hevents : commitEvents c = [.commit c.status] := by simp [commitEvents, hdone]
  rw [store_act, store_commit]
  cases place with
  | first =>
    rw [Monitor.cycleAt] at h
    simp only [finishAt, events, h, Option.toList_some, List.flatMap_cons, hevents]
    rfl
  | loop =>
    rw [Monitor.cycleAt_loop_eq_some] at h
    simp only [finishAt, events, h, hevents]
    rfl

end Pool

end ZonePool

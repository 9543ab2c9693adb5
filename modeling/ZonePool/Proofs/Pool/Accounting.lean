-- SUMMARY: What the metrics of a pool add up to over a whole run.
import Mathlib.Data.Finset.Card
import Mathlib.Data.Finset.Dedup
import ZonePool.Proofs.Directory
import ZonePool.Proofs.Metrics
import ZonePool.Proofs.Pool.OwnCycles
import ZonePool.Proofs.Pool.Polling

/-!
# Accounts of a run

Cycles flow through the monitor: what has begun has finished or is under way,
and a cycle keeps its endpoints from its beginning to its end. As a cycle counts
its probes when it finishes, installed or not, the probes add up to the
endpoints of the finished cycles. Resyncs are counted where they end and tiers
are measured where they change, so neither account needs more than one action.
-/

namespace ZonePool

/-! ## Endpoints of a cycle -/

namespace Cycle

/-- How many endpoints a cycle is about. -/
def size (c : Cycle) : Nat :=
  c.endpoints.length

@[simp] theorem size_probeNext (p : Probe) (c : Cycle) (n : Network) :
    (c.probeNext p n).1.size = c.size := by
  obtain ⟨pending, verdicts⟩ := c
  cases pending with
  | nil => rfl
  | cons endpoint rest => simp [probeNext, size, endpoints]

theorem size_of_done {c : Cycle} (h : c.pending = []) : c.size = c.verdicts.length := by
  simp [size, endpoints, h]

/-- A cycle begins with every member of some tier, each once. -/
theorem size_begin (s : Store) : (begin s).size = s.tiers.members.toFinset.card := by
  have hsame : s.tiers.union.toFinset = s.tiers.members.toFinset := by
    ext a
    rw [List.mem_toFinset, List.mem_toFinset, Tiers.mem_union]
  have hdistinct : s.tiers.union.Nodup := nodup_distinct _
  rw [← hsame, List.toFinset_card_of_nodup hdistinct]
  rfl

end Cycle

/-! ## Cycles under way -/

/-- The cycle that the loop is probing. -/
def Loop.cycle? : Loop → Option Cycle
  | .probing c => some c
  | .absent | .waiting | .ended => none

namespace Monitor

/-- The cycles under way. -/
def inFlight (m : Monitor) : List Cycle :=
  m.first.toList ++ m.loop.cycle?.toList

/-- A monitor that has not started has no cycle, and the loop comes after the first cycle. -/
structure Orderly (m : Monitor) : Prop where
  of_idle : m.store.lifecycle = .idle → m.first = none ∧ m.loop = .absent
  of_first : ∀ c, m.first = some c → m.loop = .absent

end Monitor

namespace Pool

theorem orderly_create (addresses : List String) (options : PoolOptions) (env : Environment) :
    (create addresses options env).monitor.Orderly where
  of_idle _ := ⟨rfl, rfl⟩
  of_first _ _ := rfl

theorem orderly_act {p : Pool} (h : p.monitor.Orderly) (a : Action) :
    (p.act a).monitor.Orderly where
  of_idle hidle := by
    have hbefore : p.store.lifecycle = .idle := by
      by_contra hstarted
      exact started_act hstarted a hidle
    obtain ⟨hfirst, hloop⟩ := h.of_idle hbefore
    rw [first_act, loop_act]
    cases a with
    | start =>
      change (p.act .start).store.lifecycle = .idle at hidle
      rw [store_act] at hidle
      simp [events, Store.apply, Store.start_of_idle hbefore] at hidle
    | reset | resync | missResync | pick | close | join | probeFirst | endStart | tick | probeLoop
    | endTick | commit => simp [firstAfter, loopAfter, hfirst, hloop]
  of_first c hc := by
    rw [first_act] at hc
    rw [loop_act]
    cases a with
    | start =>
      rw [firstAfter] at hc
      split at hc
      · next hidle => simp [loopAfter, (h.of_idle hidle).2]
      · simp [loopAfter, h.of_first c hc]
    | probeFirst n =>
      obtain ⟨d, hd, -⟩ := Option.map_eq_some_iff.1 hc
      simp [loopAfter, h.of_first d hd]
    | endStart =>
      obtain ⟨hfirst, hpending⟩ := Option.filter_eq_some_iff.1 hc
      have hleft : c.pending ≠ [] := by simpa using hpending
      simp [loopAfter, h.of_first c hfirst, hfirst, hleft]
    | reset | resync | missResync | pick | close | join | tick | probeLoop | endTick | commit =>
      simp [loopAfter, h.of_first c hc]

/-! ## The flow of cycles -/

/-- How many addresses are members of some tier when an action begins a cycle. -/
def begun (p : Pool) (a : Action) : List Nat :=
  let size := p.store.tiers.members.toFinset.card
  match a with
  | .start => if p.monitor.beginStart.1 then [size] else []
  | .tick => if p.monitor.tick.1 then [size] else []
  | _ => []

/-- The cycle under way that an action finishes. -/
def finished (p : Pool) : Action → Option Cycle
  | .endStart => p.monitor.first.filter (·.pending.isEmpty)
  | .endTick => p.monitor.loop.cycle?.filter (·.pending.isEmpty)
  | _ => none

/-- How many endpoints the cycle under way has probed that an action finishes. -/
def probed (p : Pool) (a : Action) : List Nat :=
  ((p.finished a).map (·.verdicts.length)).toList

/-- How many verdicts a cycle commits that was probed apart from the monitor, in any order. -/
def probedApart (_ : Pool) : Action → List Nat
  | .commit c => [c.verdicts.length]
  | _ => []

/-- No first cycle is under way beside the loop. -/
theorem first_eq_none_of_probing {p : Pool} (h : p.monitor.Orderly) {c : Cycle}
    (hloop : p.monitor.loop = .probing c) : p.monitor.first = none := by
  cases hfirst : p.monitor.first with
  | none => rfl
  | some d =>
    rw [h.of_first d hfirst] at hloop
    cases hloop

/-- What was under way before an action or begins with it has finished with it or is under way after
it, at the same size. -/
theorem flow_act {p : Pool} (h : p.monitor.Orderly) (a : Action) :
    p.monitor.inFlight.map (·.size) ++ p.begun a =
      p.probed a ++ (p.act a).monitor.inFlight.map (·.size) := by
  rw [Monitor.inFlight, Monitor.inFlight, first_act, loop_act]
  unfold begun probed finished firstAfter loopAfter
  cases a with
  | start =>
    by_cases hidle : p.monitor.store.lifecycle = .idle
    · obtain ⟨hfirst, hloop⟩ := h.of_idle hidle
      have hstart : p.monitor.store.start = (true, { p.monitor.store with lifecycle := .running }) :=
        Store.start_of_idle hidle
      simp [hidle, hfirst, hloop, Monitor.beginStart, hstart, Loop.cycle?, Cycle.size_begin, store]
    · have hstart : p.monitor.store.start = (false, p.monitor.store) :=
        Store.start_of_not_idle hidle
      simp [hidle, Monitor.beginStart, hstart, store]
  | probeFirst n => cases p.monitor.first <;> simp
  | endStart =>
    cases hfirst : p.monitor.first with
    | none => simp
    | some c =>
      have hloop := h.of_first c hfirst
      by_cases hdone : c.pending = []
      · cases p.monitor.cancelled <;>
          simp [hloop, hdone, Loop.cycle?, Cycle.size_of_done, Option.filter]
      · simp [hloop, hdone, Option.filter]
  | tick =>
    cases hloop : p.monitor.loop with
    | waiting =>
      cases hcancelled : p.monitor.cancelled <;>
        simp [hloop, hcancelled, Monitor.tick, Loop.cycle?, Cycle.size_begin]
    | absent | probing | ended => simp [hloop, Monitor.tick]
  | probeLoop n => cases p.monitor.loop <;> simp [Loop.cycle?]
  | endTick =>
    cases hloop : p.monitor.loop with
    | probing c =>
      have hfirst := first_eq_none_of_probing h hloop
      by_cases hdone : c.pending = [] <;>
        simp [hfirst, hdone, Loop.cycle?, Cycle.size_of_done, Option.filter]
    | absent | waiting | ended => simp [Loop.cycle?]
  | join => cases p.monitor.loop <;> cases p.monitor.cancelled <;> simp [Loop.cycle?]
  | reset | resync | missResync | pick | close | commit => simp

/-! ## What an action records -/

/-- The metrics once a cycle has finished, if one has. -/
def metricsAfterCycle (p : Pool) : Option Cycle → Metrics
  | some c => (c.commit p.store p.metrics).2.2
  | none => p.metrics

/-- The metrics after an action. -/
def metricsAfter (p : Pool) : Action → Metrics
  | .reset addresses => p.metrics.noteTiers (p.reset addresses).store.tiers
  | .resync instances =>
    match p.resync instances with
    | (.ok _, q) => (p.metrics.countResync .success).noteTiers q.store.tiers
    | (.error _, _) => p.metrics.countResync .error
  | .missResync => p.metrics.countResync .fetchError
  | .commit c => p.metricsAfterCycle (some c)
  | a => p.metricsAfterCycle (p.finished a)

theorem metrics_resync_of_ok {p q : Pool} {instances : List Instance} {overwrites : List Overwrite}
    (h : p.resync instances = (.ok overwrites, q)) :
    q.metrics = (p.metrics.countResync .success).noteTiers q.store.tiers := by
  obtain ⟨-, rfl⟩ := resync_of_ok h
  rfl

theorem metrics_act (p : Pool) (a : Action) : (p.act a).metrics = p.metricsAfter a := by
  cases a with
  | reset addresses => rfl
  | resync instances =>
    rw [act, metricsAfter]
    split
    · next hresult =>
      rw [hresult]
      exact metrics_resync_of_ok hresult
    · next hresult =>
      rw [(resync_of_error (congrArg Prod.fst hresult)).2]
      rfl
  | missResync | pick | close | commit c => rfl
  | join | tick =>
    obtain ⟨⟨store, probe, interval, concurrency, cancelled, first, loop, metrics⟩, turn⟩ := p
    cases loop <;> cases cancelled <;> rfl
  | start =>
    obtain ⟨⟨⟨tiers, status, history, lifecycle⟩, probe, interval, concurrency, cancelled, first, loop,
      metrics⟩, turn⟩ := p
    cases lifecycle <;> rfl
  | probeFirst n =>
    obtain ⟨⟨store, probe, interval, concurrency, cancelled, first, loop, metrics⟩, turn⟩ := p
    cases first <;> rfl
  | probeLoop n =>
    obtain ⟨⟨store, probe, interval, concurrency, cancelled, first, loop, metrics⟩, turn⟩ := p
    cases loop <;> rfl
  | endStart =>
    obtain ⟨⟨store, probe, interval, concurrency, cancelled, first, loop, metrics⟩, turn⟩ := p
    cases first with
    | none => rfl
    | some c =>
      obtain ⟨pending, verdicts⟩ := c
      cases pending with
      | nil => cases cancelled <;> rfl
      | cons endpoint rest => rfl
  | endTick =>
    obtain ⟨⟨store, probe, interval, concurrency, cancelled, first, loop, metrics⟩, turn⟩ := p
    cases loop with
    | absent | waiting | ended => rfl
    | probing c =>
      obtain ⟨pending, verdicts⟩ := c
      cases pending <;> rfl

/-! ## One account at a time -/

section

variable (p : Pool)

theorem probes_afterCycle (finished : Option Cycle) :
    (p.metricsAfterCycle finished).probes =
      p.metrics.probes + (finished.map (·.verdicts.length)).toList.sum := by
  cases finished with
  | none => rfl
  | some c => simpa [metricsAfterCycle] using c.probes_commit p.store p.metrics

theorem resyncs_afterCycle (finished : Option Cycle) :
    (p.metricsAfterCycle finished).resyncs = p.metrics.resyncs := by
  cases finished with
  | none => rfl
  | some c => exact c.resyncs_commit p.store p.metrics

theorem tierSizes_afterCycle (finished : Option Cycle) :
    (p.metricsAfterCycle finished).tierSizes = p.metrics.tierSizes := by
  cases finished with
  | none => rfl
  | some c => exact c.tierSizes_commit p.store p.metrics

theorem probes_act (a : Action) :
    (p.act a).metrics.probes =
      p.metrics.probes + ((p.probed a).sum + (p.probedApart a).sum) := by
  rw [metrics_act]
  cases a with
  | reset addresses => rfl
  | resync instances =>
    rw [metricsAfter]
    split <;> simp [probed, finished, probedApart]
  | missResync => rfl
  | commit c =>
    rw [metricsAfter, probes_afterCycle]
    simp [probed, finished, probedApart]
  | pick | close | join | start | probeFirst | endStart | tick | probeLoop | endTick =>
    exact p.probes_afterCycle _

/-- How a round of resync ends that an action is. -/
def rounds (p : Pool) : Action → List ResyncOutcome
  | .resync instances =>
    match (p.resync instances).1 with
    | .ok _ => [.success]
    | .error _ => [.error]
  | .missResync => [.fetchError]
  | _ => []

theorem resyncs_act (a : Action) (outcome : ResyncOutcome) :
    (p.act a).metrics.resyncs outcome = p.metrics.resyncs outcome + (p.rounds a).count outcome := by
  rw [metrics_act]
  cases a with
  | reset addresses => rfl
  | resync instances =>
    rw [metricsAfter, rounds]
    split <;> next hresult => cases outcome <;> simp [hresult]
  | missResync => cases outcome <;> simp [metricsAfter, rounds]
  | pick | close | join | start | probeFirst | endStart | tick | probeLoop | endTick | commit =>
    exact congrFun (p.resyncs_afterCycle _) outcome

/-- The sizes on record are those of the tiers. -/
def Measured : Prop :=
  p.metrics.tierSizes = some p.store.tiers.sizes

theorem Measured.of_same {p q : Pool} (h : p.Measured) (htiers : q.store.tiers = p.store.tiers)
    (hsizes : q.metrics.tierSizes = p.metrics.tierSizes) : q.Measured := by
  rw [Measured, hsizes, htiers, h]

theorem measured_act {p : Pool} (h : p.Measured) (a : Action) : (p.act a).Measured := by
  have hmetrics := metrics_act p a
  cases a with
  | reset addresses => rfl
  | resync instances =>
    rw [metricsAfter] at hmetrics
    split at hmetrics
    · next hresult =>
      rw [Measured, hmetrics, act, hresult]
      rfl
    · next hresult =>
      have hpool := (resync_of_error (congrArg Prod.fst hresult)).2
      exact h.of_same (by rw [act, hpool]; rfl) (by rw [hmetrics, Metrics.tierSizes_countResync])
  | missResync => exact h
  | pick | close | join | start | probeFirst | endStart | tick | probeLoop | endTick | commit =>
    refine h.of_same (tiers_act_of_keepsTiers rfl) ?_
    rw [hmetrics]
    exact p.tierSizes_afterCycle _

end

/-! ## Whole runs -/

/-- What the actions of a run come to, one after another. -/
def along {α : Type} (f : Pool → Action → List α) (p : Pool) : List Action → List α
  | [] => []
  | a :: actions => f p a ++ (p.act a).along f actions

theorem flow_run {p : Pool} (h : p.monitor.Orderly) (actions : List Action) :
    p.monitor.inFlight.map (·.size) ++ p.along begun actions =
      p.along probed actions ++ (p.run actions).monitor.inFlight.map (·.size) := by
  induction actions generalizing p with
  | nil => simp [along]
  | cons a actions ih =>
    rw [run_cons, along, along, ← List.append_assoc, flow_act h, List.append_assoc,
      ih (orderly_act h a), List.append_assoc]

theorem probes_run (p : Pool) (actions : List Action) :
    (p.run actions).metrics.probes =
      p.metrics.probes + ((p.along probed actions).sum + (p.along probedApart actions).sum) := by
  induction actions generalizing p with
  | nil => rfl
  | cons a actions ih =>
    rw [run_cons, ih, probes_act, along, along, List.sum_append, List.sum_append]
    omega

theorem resyncs_run (p : Pool) (actions : List Action) (outcome : ResyncOutcome) :
    (p.run actions).metrics.resyncs outcome =
      p.metrics.resyncs outcome + (p.along rounds actions).count outcome := by
  induction actions generalizing p with
  | nil => rfl
  | cons a actions ih => rw [run_cons, ih, resyncs_act, along, List.count_append, Nat.add_assoc]

theorem measured_run {p : Pool} (h : p.Measured) (actions : List Action) :
    (p.run actions).Measured := by
  induction actions generalizing p with
  | nil => exact h
  | cons a actions ih => exact ih (measured_act h a)

/-! ## Rounds with a directory -/

open Directory (Lists Fails lists_or_fails)

/-- A round of resync is an action with one outcome: `success` exactly when what the directory lists
has been applied, and `fetchError` exactly when the directory has failed to list anything. -/
theorem rounds_resyncFrom (p : Pool) (d : Directory) (n : Network) :
    let answer := (Http.get d.url n).1
    let q := (p.resyncFrom d n).2.1
    ∃ a outcome, q = p.act a ∧ p.rounds a = [outcome] ∧
      (outcome = .success ↔
        ∃ instances overwrites, Lists answer instances ∧ p.resync instances = (.ok overwrites, q)) ∧
      (outcome = .fetchError ↔ ∃ failure, Fails answer failure) ∧
      (outcome ≠ .success → q.store = p.store) := by
  intro answer q
  rcases lists_or_fails answer with ⟨instances, hlists⟩ | ⟨failure, hfails⟩
  · have hround : q = (p.resync instances).2 := by
      simp only [q, resyncFrom_of_lists hlists]
    have hnever : ∀ failure, ¬Fails answer failure := hlists.not_fails
    cases hresult : (p.resync instances).1 with
    | ok overwrites =>
      have happlied : p.resync instances = (.ok overwrites, q) := Prod.ext hresult hround.symm
      exact ⟨.resync instances, .success, hround, by simp [rounds, hresult],
        by simpa using ⟨instances, hlists, overwrites, happlied⟩, by simpa using hnever, by simp⟩
    | error failure =>
      have hrefused : ∀ others, Lists answer others →
          ∀ overwrites, p.resync others ≠ (.ok overwrites, q) := by
        intro others hothers overwrites hok
        rw [← hlists.unique hothers] at hok
        rw [hok] at hresult
        cases hresult
      refine ⟨.resync instances, .error, hround, by simp [rounds, hresult], by simpa using hrefused,
        by simpa using hnever, fun _ => ?_⟩
      rw [hround, (resync_of_error hresult).2]
      rfl
  · have hround : q = p.countResync .fetchError := by
      simp only [q, resyncFrom_of_fails hfails]
    have hnever : ∀ instances, ¬Lists answer instances := fun _ hlists =>
      hlists.not_fails failure hfails
    refine ⟨.missResync, .fetchError, hround, rfl, ?_, by simpa using ⟨failure, hfails⟩, fun _ => ?_⟩
    · simpa using fun instances hlists => absurd hlists (hnever instances)
    · rw [hround]
      rfl

/-! ## The accounts -/

/-- The exposition of a run adds up. The probes are those of all cycles but the one under way, each
with as many as there were members at its start, in whatever order its probes end. Every resync is
counted once, a round with a directory as a success exactly when it has been applied. The tiers are
shown at their sizes. -/
theorem metrics_run (addresses : List String) (options : PoolOptions) (env : Environment)
    (actions : List Action) :
    let p := create addresses options env
    let q := p.run actions
    q.metrics.total "addrpool_probe_total" =
      ((p.along begun actions).rdrop q.monitor.inFlight.length).sum +
        (p.along probedApart actions).sum ∧
    (∀ moves r c, (InFlight.begin q).run moves = ⟨r, c⟩ → c.pending = [] →
      r.probedApart (.commit c) = [q.store.tiers.members.toFinset.card]) ∧
    (∀ outcome, q.metrics.resyncTotal outcome = (p.along rounds actions).count outcome) ∧
    (∀ d n,
      let answer := (Http.get d.url n).1
      let r := (q.resyncFrom d n).2.1
      ∃ outcome,
        (∀ other, r.metrics.resyncTotal other =
          q.metrics.resyncTotal other + if other = outcome then 1 else 0) ∧
        (outcome = .success ↔ ∃ instances overwrites,
          Lists answer instances ∧ q.resync instances = (.ok overwrites, r)) ∧
        (outcome = .fetchError ↔ ∃ failure, Fails answer failure) ∧
        (outcome ≠ .success → r.store = q.store)) ∧
    ∀ tier, q.metrics.sample? "addrpool_tier_endpoints" (Metrics.label "tier" tier.name) =
      some (q.store.tiers.get tier).length := by
  intro p q
  refine ⟨?_, fun moves r c hrun hdone => ?_, fun outcome => ?_, fun d n => ?_, fun tier => ?_⟩
  · have hbegun : p.along begun actions =
        p.along probed actions ++ q.monitor.inFlight.map (·.size) :=
      flow_run (orderly_create addresses options env) actions
    have hprobes : q.metrics.probes =
        (p.along probed actions).sum + (p.along probedApart actions).sum := by
      rw [probes_run]
      exact Nat.zero_add _
    rw [Metrics.total_probes, hprobes, hbegun]
    simp [List.rdrop]
  · have hendpoints := InFlight.endpoints_run (InFlight.begin q) moves
    rw [hrun] at hendpoints
    have hsize : c.size = (Cycle.begin q.store).size := hendpoints.length_eq
    rw [probedApart, ← Cycle.size_of_done hdone, hsize, Cycle.size_begin]
  · rw [Metrics.resyncTotal_eq, resyncs_run]
    cases outcome <;> exact Nat.zero_add _
  · obtain ⟨a, outcome, hact, hrounds, hspec⟩ := rounds_resyncFrom q d n
    refine ⟨outcome, fun other => ?_, hspec⟩
    rw [Metrics.resyncTotal_eq, Metrics.resyncTotal_eq, hact, resyncs_act, hrounds]
    cases outcome <;> cases other <;> rfl
  · have hmeasured : q.Measured := measured_run (p := p) rfl actions
    rw [Metrics.sample?_tier, hmeasured, Option.map_some, Tiers.get_sizes]

/-- A reset falls into the first cycle, a close discards the second one, and a third one has probed
its endpoints in another order; all three count. -/
theorem metrics_run_of_discarded_cycle :
    let n : Network := {}
    let p := create ["10.0.0.1:80"] { diffAz := ["10.0.0.1:80", "10.0.0.2:80"] } .empty
    let f := (InFlight.begin p).run [.probe "10.0.0.2:80" n, .probe "10.0.0.1:80" n]
    let actions : List Action := [.start, .probeFirst n, .reset ["10.0.0.3:80"], .probeFirst n,
      .endStart, .tick, .resync [{ endpoints := ["rest://10.0.0.4:80"] }], .close, .probeLoop n,
      .endTick, .missResync, .commit f.cycle]
    let q := p.run actions
    f.cycle.pending = [] ∧ p.along begun actions = [2, 1] ∧ q.store.history.length = 1 ∧
      q.metrics.total "addrpool_probe_total" = 5 ∧ q.metrics.resyncTotal .success = 1 := by
  intro n p f actions q
  obtain ⟨hprobes, -, hresyncs, -⟩ := metrics_run ["10.0.0.1:80"]
    { diffAz := ["10.0.0.1:80", "10.0.0.2:80"] } .empty actions
  obtain ⟨-, hapart, -⟩ := metrics_run ["10.0.0.1:80"]
    { diffAz := ["10.0.0.1:80", "10.0.0.2:80"] } .empty []
  have hpending : f.cycle.pending = [] := by rfl
  have hbegun : p.along begun actions = [2, 1] := by decide +kernel
  have hinFlight : q.monitor.inFlight.length = 0 := by decide +kernel
  have hthird : p.along probedApart actions = [2] := hapart _ f.pool f.cycle rfl hpending
  refine ⟨hpending, hbegun, by decide +kernel, ?_, ?_⟩
  · rw [hprobes, hbegun, hinFlight, hthird]
    rfl
  · rw [hresyncs]
    decide +kernel

end Pool

end ZonePool

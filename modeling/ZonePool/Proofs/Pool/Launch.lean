-- SUMMARY: A launched pool has probed each of its endpoints once, however the probes overlap.
import Mathlib.Data.List.Basic
import ZonePool.Proofs.Cycle.Overlap
import ZonePool.Proofs.Pool.Loop
import ZonePool.Proofs.Tier

/-!
# Launches

A pool is launched by a whole first cycle. The cycle probes each distinct
endpoint that the pool was given, in `Default` or in `DiffAz`, once, and its
verdicts are the first status of the pool. From then on a start does nothing.
-/

namespace ZonePool

open Probe (Stage)

/-! ## A start without a break -/

namespace Cycle

/-- Silent peers hold a cycle up, and then it goes on as if nothing had been. -/
theorem probeAll_of_runUntilHeld {p : Probe} {slots : Nat} {endpoints left : List String}
    {n m : Network} {held : Bool} {verdicts : List (String × Verdict)}
    (h : runUntilHeld p slots endpoints n = (held, verdicts, left, m)) :
    probeAll p endpoints n = (verdicts ++ (probeAll p left m).1, (probeAll p left m).2) := by
  fun_induction runUntilHeld p slots endpoints n generalizing held verdicts left m with
  | case1 =>
    cases h
    rfl
  | case3 slots endpoint rest n failure k hcheck htimeout hslots =>
    cases h
    rw [probeAll_cons, hcheck]
    rfl
  | case2 slots endpoint rest n method k hcheck heldLater later leftLater kLater hlater ih
  | case4 slots endpoint rest n failure k hcheck htimeout hslots heldLater later leftLater kLater hlater ih
  | case5 slots endpoint rest n failure k hcheck htimeout heldLater later leftLater kLater hlater ih =>
    cases h
    rw [probeAll_cons, hcheck, ih hlater]
    rfl

theorem run_hold (p : Probe) (slots : Nat) (c : Cycle) (n : Network) :
    (c.hold p slots n).2.1.run p (c.hold p slots n).2.2 = c.run p n := by
  rcases hheld : runUntilHeld p slots c.pending n with ⟨held, verdicts, left, m⟩
  simp only [hold, run, hheld, probeAll_of_runUntilHeld hheld, List.append_assoc]

end Cycle

namespace Monitor

/-- A start with nothing else going on is one whole cycle. -/
theorem start_of_idle {m : Monitor} (hidle : m.store.lifecycle = .idle) (hlive : m.cancelled = false)
    (n : Network) :
    let opened := { m with store := { m.store with lifecycle := .running } }
    let checked := (Cycle.begin opened.store).run m.probe n
    m.start n = (true, opened.rest checked.1, checked.2) := by
  obtain ⟨store, probe, interval, concurrency, cancelled, first, loop, metrics⟩ := m
  cases hlive
  simp only at hidle
  have hrun := Cycle.run_hold probe concurrency
    (Cycle.begin { store with lifecycle := .running }) n
  simp only [start, holdStart, beginStart, Store.start_of_idle hidle, finishStart, hrun]
  rfl

/-- Once a monitor has started, a start does nothing. -/
theorem start_of_started {m : Monitor} (h : m.store.lifecycle ≠ .idle) (n : Network) :
    m.start n = (false, m, n) := by
  simp only [start, holdStart, beginStart, Store.start_of_not_idle h]

/-- A first cycle that has no endpoint left commits, and the loop waits. -/
theorem endStart_of_done {m : Monitor} {c : Cycle} (hfirst : m.first = some c) (hdone : c.pending = [])
    (hlive : m.cancelled = false) : m.endStart = (true, m.rest c) := by
  have hcommit : (m.commit c).2.cancelled = false := (m.cancelled_commit c).trans hlive
  simp only [endStart, hfirst, hdone, List.isEmpty_nil, if_true]
  rw [if_neg (by rw [hcommit]; exact Bool.false_ne_true), rest]

theorem store_rest (m : Monitor) (c : Cycle) : (m.rest c).store = (m.store.commit c.status).2 := by
  obtain ⟨metrics, h⟩ := Pool.commit_monitor m c
  rw [rest, h]

end Monitor

namespace Pool

/-! ## Launching -/

variable {addresses : List String} {options : PoolOptions} {env : Environment} {n : Network}
  {o : Overlap}

/-- A pool whose first cycle has begun. -/
def opened (addresses : List String) (options : PoolOptions) (env : Environment) : Pool :=
  (create addresses options env).act .start

/-- The pool after a first cycle that went as in `o`. -/
def launchedBy (addresses : List String) (options : PoolOptions) (env : Environment) (o : Overlap) :
    Pool :=
  let p := opened addresses options env
  (p.withMonitor { p.monitor with first := some o.cycle }).act .endStart

/-- A whole first cycle of a pool in a network. -/
def FirstCycle (addresses : List String) (options : PoolOptions) (env : Environment) (n : Network)
    (o : Overlap) : Prop :=
  let p := opened addresses options env
  Overlap.Runs p.monitor.probe (max options.concurrency 1) (.begin p.store n) o ∧ o.Over

theorem store_opened : (opened addresses options env).store =
    { Store.create (distinct addresses) options.diffAz with lifecycle := .running } := rfl

theorem launchedBy_eq (h : o.Over) : launchedBy addresses options env o =
    (opened addresses options env).withMonitor ((opened addresses options env).monitor.rest o.cycle) := by
  have hdone : o.cycle.pending = [] := by simp [Overlap.cycle, h.1, h.2]
  rw [launchedBy, act, Monitor.endStart_of_done rfl hdone rfl]
  rfl

/-- A launch is a first cycle that probes one endpoint after another. -/
theorem exists_firstCycle_launch (addresses : List String) (options : PoolOptions) (env : Environment)
    (n : Network) : ∃ o, FirstCycle addresses options env n o ∧
      launch addresses options env n = (launchedBy addresses options env o, o.network) := by
  have hslots : 1 ≤ max options.concurrency 1 := Nat.le_max_right _ _
  obtain ⟨o, hruns, hover, hcycle, hnetwork⟩ := Overlap.exists_runs_run
    (opened addresses options env).monitor.probe hslots (opened addresses options env).store n
  refine ⟨o, ⟨hruns, hover⟩, ?_⟩
  have hstart := Monitor.start_of_idle (m := (create addresses options env).monitor) rfl rfl n
  rw [launchedBy_eq hover, hcycle, hnetwork, launch, start, hstart]
  rfl

theorem mem_results_iff (h : FirstCycle addresses options env n o) {endpoint : String} :
    endpoint ∈ o.results.map (·.1) ↔ endpoint ∈ addresses ∨ endpoint ∈ options.diffAz := by
  rw [(Overlap.perm_endpoints h.1 h.2).mem_iff, store_opened, Store.snapshot, Tiers.mem_union]
  simp [Store.create, Tiers.members, mem_distinct]

theorem store_launchedBy (h : o.Over) : (launchedBy addresses options env o).store =
    { (opened addresses options env).store with
      status := (opened addresses options env).store.kept o.cycle.status
      history := [(opened addresses options env).store.kept o.cycle.status] } := by
  have hstore : (launchedBy addresses options env o).store =
      ((opened addresses options env).store.commit o.cycle.status).2 := by
    rw [launchedBy_eq h]
    exact Monitor.store_rest _ _
  have hrunning : (opened addresses options env).store.lifecycle ≠ .stopped := by
    rw [store_opened]
    exact nofun
  rw [hstore, Store.commit_of_not_stopped hrunning]
  rfl

/-- A launched pool keeps every verdict of its first cycle. -/
theorem get?_launchedBy (h : FirstCycle addresses options env n o) {endpoint : String} {v : Verdict} :
    (launchedBy addresses options env o).store.status.get? endpoint = some v ↔
      ∃ result, (endpoint, result) ∈ o.results ∧ v = Probe.verdictOf result := by
  have hverdict : o.cycle.status.get? endpoint = some v ↔
      ∃ result, (endpoint, result) ∈ o.results ∧ v = Probe.verdictOf result := by
    rw [Cycle.status, KeyMap.get?_ofList (Overlap.nodup_verdicts h.1 h.2)]
    simp [Overlap.cycle, eq_comm]
  rw [store_launchedBy h.2, Store.get?_kept, hverdict, and_iff_right_iff_imp]
  rintro ⟨result, hresult, -⟩
  have hmem := (mem_results_iff h).1 (List.mem_map_of_mem hresult)
  simpa [store_opened, Store.create, Tiers.members, mem_distinct] using hmem

/-- A launched pool has probed each of its endpoints once, however the probes overlapped, and its
status is what they found; no later start does anything. -/
theorem launch_probes_once (addresses : List String) (options : PoolOptions) (env : Environment)
    (n : Network) :
    (∃ o, FirstCycle addresses options env n o ∧
      launch addresses options env n = (launchedBy addresses options env o, o.network)) ∧
    ∀ o, FirstCycle addresses options env n o →
      let p := launchedBy addresses options env o
      FirstOccurrences addresses p.store.tiers.default ∧ p.store.tiers.sameAz = [] ∧
        FirstOccurrences options.diffAz p.store.tiers.diffAz ∧
      (o.results.map (·.1)).Nodup ∧
        (∀ endpoint, endpoint ∈ o.results.map (·.1) ↔
          endpoint ∈ addresses ∨ endpoint ∈ options.diffAz) ∧
      (∀ endpoint, endpoint ∈ p.store.status.keys ↔
        endpoint ∈ addresses ∨ endpoint ∈ options.diffAz) ∧
        (∀ endpoint v, p.store.status.get? endpoint = some v ↔
          ∃ result, (endpoint, result) ∈ o.results ∧ v = Probe.verdictOf result) ∧
      p.store.history = [p.store.status] ∧ p.store.lifecycle = .running ∧
      ∀ q, Reaches p q → ∀ m, q.start m = (false, q, m) := by
  refine ⟨exists_firstCycle_launch addresses options env n, fun o h => ?_⟩
  dsimp only
  refine ⟨?default, ?sameAz, ?diffAz, ?once, fun _ => mem_results_iff h, fun endpoint => ?keys,
    fun _ _ => get?_launchedBy h, ?history, ?running, ?later⟩
  case default =>
    rw [store_launchedBy h.2, store_opened]
    simpa only [Store.create, distinct_distinct] using firstOccurrences_distinct addresses
  case sameAz => rw [store_launchedBy h.2, store_opened]; rfl
  case diffAz =>
    rw [store_launchedBy h.2, store_opened]
    exact firstOccurrences_distinct options.diffAz
  case once => exact Overlap.map_fst_verdicts o ▸ Overlap.nodup_verdicts h.1 h.2
  case keys =>
    rw [KeyMap.mem_keys_iff, ← mem_results_iff h]
    simp [get?_launchedBy h]
  case history => rw [store_launchedBy h.2]
  case running => rw [store_launchedBy h.2, store_opened]
  case later =>
    rintro q ⟨actions, rfl⟩ m
    have hstarted : (launchedBy addresses options env o).store.lifecycle ≠ .idle := by
      rw [store_launchedBy h.2, store_opened]
      exact nofun
    have hlater := Store.started_run hstarted ((launchedBy addresses options env o).trace actions)
    rw [← store_run] at hlater
    rw [start, Monitor.start_of_started hlater]

/-- An endpoint that is listed twice, in both tiers, and no slots. -/
theorem launch_probes_once_of_duplicates :
    let options : PoolOptions := { diffAz := ["10.0.0.2:80", "10.0.0.1:80"], concurrency := 0 }
    let n : Network := { peers := [(.v4 ⟨10, 0, 0, 1⟩ 80, .accepting (some 1) none)] }
    let p := (launch ["10.0.0.1:80", "10.0.0.1:80"] options .empty n).1
    FirstOccurrences ["10.0.0.1:80", "10.0.0.1:80"] p.store.tiers.default ∧
      (∀ endpoint, endpoint ∈ p.store.status.keys ↔
        endpoint = "10.0.0.1:80" ∨ endpoint = "10.0.0.2:80") ∧
      p.store.history = [p.store.status] ∧ p.start n = (false, p, n) := by
  intro options n p
  obtain ⟨⟨o, ho, hlaunch⟩, hall⟩ :=
    launch_probes_once ["10.0.0.1:80", "10.0.0.1:80"] options .empty n
  obtain ⟨hdefault, -, -, -, -, hkeys, -, hhistory, -, hlater⟩ := hall o ho
  have hp : p = launchedBy ["10.0.0.1:80", "10.0.0.1:80"] options .empty o := congrArg Prod.fst hlaunch
  rw [hp]
  refine ⟨hdefault, fun endpoint => ?_, hhistory, hlater _ (.refl _) n⟩
  rw [hkeys]
  simp [options, or_comm]

end Pool

end ZonePool

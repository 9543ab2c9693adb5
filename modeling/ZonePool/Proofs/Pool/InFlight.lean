-- SUMMARY: A probe cycle under way while other steps change its pool.
import Mathlib.Data.List.Nodup
import ZonePool.Proofs.Pool.Reachable

/-!
# Cycles in flight

Between its snapshot and its commit a cycle holds no lock: its probes end in any
order, and callers reset, resync and close the pool meanwhile. The endpoints
probed and those still pending together stay the snapshot. This makes the
status of a finished cycle a function of its verdicts, whatever their order, and
the commit does the rest.
-/

namespace ZonePool

/-! ## Probes that end in any order -/

namespace Cycle

/-- The probe of a pending endpoint ends; nothing happens for any other endpoint. -/
def probeOne (p : Probe) (c : Cycle) (endpoint : String) (n : Network) : Cycle :=
  if endpoint ∈ c.pending then
    ⟨c.pending.erase endpoint, c.verdicts ++ [(endpoint, (p.verdict endpoint n).1)]⟩
  else c

/-- Probing one endpoint after another is one of the orders. -/
theorem probeNext_eq_probeOne (p : Probe) {c : Cycle} {endpoint : String} {rest : List String}
    (h : c.pending = endpoint :: rest) (n : Network) :
    (c.probeNext p n).1 = c.probeOne p endpoint n := by
  simp [probeNext, probeOne, h]

/-- The endpoints probed so far, then those still to probe. -/
def endpoints (c : Cycle) : List String :=
  c.verdicts.map (·.1) ++ c.pending

theorem endpoints_probeOne (p : Probe) (c : Cycle) (endpoint : String) (n : Network) :
    (c.probeOne p endpoint n).endpoints.Perm c.endpoints := by
  unfold probeOne
  split
  · next hpending =>
    simp only [endpoints, List.map_append, List.map_cons, List.map_nil, List.append_assoc,
      List.singleton_append]
    exact (List.perm_cons_erase hpending).symm.append_left _
  · rfl

theorem verdict_of_probeOne {p : Probe} {c : Cycle} {probed : String} {n : Network}
    {ev : String × Verdict} (h : ev ∈ (c.probeOne p probed n).verdicts) :
    ev ∈ c.verdicts ∨ ev = (probed, (p.verdict probed n).1) := by
  unfold probeOne at h
  split at h
  · simpa using h
  · exact .inl h

end Cycle

namespace Pool

/-! ## Moves -/

/-- A pool, and a cycle that began in it and has not committed. -/
structure InFlight where
  pool : Pool
  cycle : Cycle

/-- What may happen while a cycle is in flight. -/
inductive Move where
  /-- A probe of the cycle ends, in some network. -/
  | probe (endpoint : String) (n : Network)
  /-- Anyone else acts on the pool. -/
  | act (action : Action)

def Move.action? : Move → Option Action
  | .probe _ _ => none
  | .act action => some action

namespace InFlight

/-- A cycle begins on the current members. -/
def begin (p : Pool) : InFlight :=
  ⟨p, .begin p.store⟩

def move (f : InFlight) : Move → InFlight
  | .probe endpoint n => { f with cycle := f.cycle.probeOne f.pool.monitor.probe endpoint n }
  | .act action => { f with pool := f.pool.act action }

/-- Several moves one after another. -/
def run (f : InFlight) (moves : List Move) : InFlight :=
  moves.foldl move f

@[simp] theorem run_nil (f : InFlight) : f.run [] = f := rfl

@[simp] theorem run_cons (f : InFlight) (m : Move) (moves : List Move) :
    f.run (m :: moves) = (f.move m).run moves := rfl

theorem run_append (f : InFlight) (first second : List Move) :
    f.run (first ++ second) = (f.run first).run second :=
  List.foldl_append

/-- The cycle leaves the pool to the others. -/
theorem pool_run (f : InFlight) (moves : List Move) :
    (f.run moves).pool = f.pool.run (moves.filterMap Move.action?) := by
  induction moves generalizing f with
  | nil => rfl
  | cons m moves ih =>
    rw [run_cons, ih]
    cases m with
    | probe endpoint n => rfl
    | act action => rfl

theorem endpoints_run (f : InFlight) (moves : List Move) :
    (f.run moves).cycle.endpoints.Perm f.cycle.endpoints := by
  induction moves generalizing f with
  | nil => rfl
  | cons m moves ih =>
    refine (ih (f.move m)).trans ?_
    cases m with
    | probe endpoint n => exact f.cycle.endpoints_probeOne f.pool.monitor.probe endpoint n
    | act action => rfl

/-- A cycle without pending endpoints has probed its snapshot, each endpoint once. -/
theorem probed_of_done {p : Pool} {moves : List Move} {f : InFlight} (hrun : (begin p).run moves = f)
    (hdone : f.cycle.pending = []) : (f.cycle.verdicts.map (·.1)).Perm p.store.tiers.union := by
  have hperm := endpoints_run (begin p) moves
  rw [hrun] at hperm
  simpa [Cycle.endpoints, hdone, begin, Cycle.begin, Store.snapshot] using hperm

theorem mem_probed_iff {p : Pool} {moves : List Move} {f : InFlight} (hrun : (begin p).run moves = f)
    (hdone : f.cycle.pending = []) (endpoint : String) :
    endpoint ∈ f.cycle.verdicts.map (·.1) ↔ ∃ tier, endpoint ∈ p.store.tiers.get tier := by
  rw [(probed_of_done hrun hdone).mem_iff, Tiers.mem_union, Tiers.mem_members]

/-- The status of a finished cycle has exactly its verdicts. -/
theorem get?_status_of_done {p : Pool} {moves : List Move} {f : InFlight}
    (hrun : (begin p).run moves = f) (hdone : f.cycle.pending = []) {endpoint : String}
    {v : Verdict} : f.cycle.status.get? endpoint = some v ↔ (endpoint, v) ∈ f.cycle.verdicts := by
  have hnodup : (f.cycle.verdicts.map (·.1)).Nodup :=
    (probed_of_done hrun hdone).nodup_iff.2 (nodup_distinct _)
  exact KeyMap.get?_ofList hnodup

/-- Every verdict of the run was there before or is what a probe answered. -/
theorem verdict_of_probe {f : InFlight} {moves : List Move} {endpoint : String} {v : Verdict}
    (h : (endpoint, v) ∈ (f.run moves).cycle.verdicts) :
    (endpoint, v) ∈ f.cycle.verdicts ∨
      ∃ n, .probe endpoint n ∈ moves ∧ v = (f.pool.monitor.probe.verdict endpoint n).1 := by
  induction moves generalizing f with
  | nil => exact .inl h
  | cons m moves ih =>
    cases m with
    | act action =>
      rcases ih h with hold | ⟨n, hmove, hv⟩
      · exact .inl hold
      · refine .inr ⟨n, List.mem_cons_of_mem _ hmove, ?_⟩
        rwa [move, probe_act] at hv
    | probe probed n =>
      rcases ih h with hnow | ⟨n', hmove, hv⟩
      · rcases Cycle.verdict_of_probeOne hnow with hold | heq
        · exact .inl hold
        · cases heq
          exact .inr ⟨n, List.mem_cons_self, rfl⟩
      · exact .inr ⟨n', List.mem_cons_of_mem _ hmove, hv⟩

/-! ## The commit -/

/-- Whatever happens between the snapshot of a cycle and its commit, the commit installs the
verdicts on the endpoints that are members by then, and nothing once the pool is stopped. -/
theorem commit_inFlight {p q r : Pool} {c : Cycle} {moves : List Move} {installed : Bool}
    (hrun : (begin p).run moves = ⟨q, c⟩) (hdone : c.pending = [])
    (hcommit : q.commit c = (installed, r)) :
    q = p.run (moves.filterMap Move.action?) ∧
    (c.verdicts.map (·.1)).Perm p.store.tiers.union ∧
    (c.verdicts.map (·.1)).Nodup ∧
    (∀ endpoint, endpoint ∈ c.verdicts.map (·.1) ↔ ∃ tier, endpoint ∈ p.store.tiers.get tier) ∧
    (∀ endpoint v, (endpoint, v) ∈ c.verdicts →
      ∃ n, .probe endpoint n ∈ moves ∧ v = (p.monitor.probe.verdict endpoint n).1) ∧
    (installed = false ↔ q.store.lifecycle = .stopped) ∧
    (installed = false → r.store = q.store) ∧
    (installed = true →
      (∀ endpoint v, r.store.status.get? endpoint = some v ↔
        (∃ tier, endpoint ∈ q.store.tiers.get tier) ∧ (endpoint, v) ∈ c.verdicts) ∧
      r.store.history = (q.store.history ++ [r.store.status]).rtake 3 ∧
      r.store.tiers = q.store.tiers ∧ r.store.lifecycle = q.store.lifecycle) ∧
    (installed = true → q.store.tiers = p.store.tiers →
      ∀ endpoint, endpoint ∈ r.store.status.keys ↔ ∃ tier, endpoint ∈ r.store.tiers.get tier) := by
  have hperm := probed_of_done hrun hdone
  have hpool : q = p.run (moves.filterMap Move.action?) := by
    have hothers := pool_run (begin p) moves
    rwa [hrun] at hothers
  have hinstalled : installed = (q.store.commit c.status).1 := by rw [← fst_commit, hcommit]
  have hstore : r.store = (q.store.commit c.status).2 := by rw [← store_commit, hcommit]
  have hprobed := mem_probed_iff hrun hdone
  have hverdict : ∀ endpoint v, (endpoint, v) ∈ c.verdicts →
      ∃ n, .probe endpoint n ∈ moves ∧ v = (p.monitor.probe.verdict endpoint n).1 := by
    intro endpoint v hmem
    have hrunMem : (endpoint, v) ∈ ((begin p).run moves).cycle.verdicts := by rwa [hrun]
    exact (verdict_of_probe hrunMem).resolve_left List.not_mem_nil
  refine ⟨hpool, hperm, hperm.nodup_iff.2 (nodup_distinct _), hprobed, hverdict, ?_⟩
  by_cases hstopped : q.store.lifecycle = .stopped
  · rw [Store.commit_of_stopped hstopped] at hinstalled hstore
    subst hinstalled
    simp [hstore, hstopped]
  · rw [Store.commit_of_not_stopped hstopped] at hinstalled hstore
    have hkept : ∀ endpoint v, r.store.status.get? endpoint = some v ↔
        (∃ tier, endpoint ∈ q.store.tiers.get tier) ∧ (endpoint, v) ∈ c.verdicts := by
      intro endpoint v
      rw [hstore, Store.get?_kept, Tiers.mem_members, get?_status_of_done hrun hdone]
    have hkeys : q.store.tiers = p.store.tiers →
        ∀ endpoint, endpoint ∈ r.store.status.keys ↔
          ∃ tier, endpoint ∈ r.store.tiers.get tier := by
      intro hsame endpoint
      have htiers : r.store.tiers = q.store.tiers := by rw [hstore]
      rw [KeyMap.mem_keys_iff, htiers]
      constructor
      · rintro ⟨v, hget⟩
        exact ((hkept endpoint v).1 hget).1
      · intro hmember
        obtain ⟨⟨_, v⟩, hmem, rfl⟩ := List.mem_map.1 ((hprobed endpoint).2 (hsame ▸ hmember))
        exact ⟨v, (hkept _ v).2 ⟨hmember, hmem⟩⟩
    have hparts : r.store.history = (q.store.history ++ [r.store.status]).rtake 3 ∧
        r.store.tiers = q.store.tiers ∧ r.store.lifecycle = q.store.lifecycle := by
      rw [hstore]
      exact ⟨rfl, rfl, rfl⟩
    subst hinstalled
    exact ⟨by simp [hstopped], by simp, fun _ => ⟨hkept, hparts⟩, fun _ => hkeys⟩

/-- A cycle whose only endpoint leaves the pool under way commits no verdict on it. -/
theorem commit_inFlight_of_left :
    let n : Network := {}
    let p := create ["10.0.0.1:80"] {} .empty
    let f := (begin p).run [.act (.reset ["10.0.0.2:80"]), .probe "10.0.0.1:80" n]
    (f.pool.commit f.cycle).1 = true ∧
      ∀ v, (f.pool.commit f.cycle).2.store.status.get? "10.0.0.1:80" ≠ some v := by
  intro n p f
  have hcommit := (Prod.eta (f.pool.commit f.cycle)).symm
  obtain ⟨-, -, -, -, -, hinstalled, -, hkept, -⟩ :=
    commit_inFlight (p := p) (q := f.pool) (c := f.cycle) rfl (by rfl) hcommit
  have hrunning : (f.pool.commit f.cycle).1 = true := by
    rw [← Bool.not_eq_false, hinstalled]
    exact nofun
  refine ⟨hrunning, fun v hget => ?_⟩
  obtain ⟨tier, hmember⟩ := (((hkept hrunning).1 _ v).1 hget).1
  have htiers : f.pool.store.tiers = ⟨["10.0.0.2:80"], [], []⟩ := by rfl
  rw [htiers] at hmember
  cases tier with
  | default => simp [Tiers.get] at hmember
  | sameAz | diffAz => exact absurd hmember List.not_mem_nil

/-! ## Cycles that nothing interrupts -/

theorem run_of_advances {p : Pool} {c c' : Cycle} (h : Cycle.Advances p.monitor.probe c c') :
    ∃ moves, moves.filterMap Move.action? = [] ∧ (InFlight.mk p c).run moves = ⟨p, c'⟩ := by
  induction h with
  | refl c => exact ⟨[], rfl, rfl⟩
  | @probe c c' n _ ih =>
    cases hpending : c.pending with
    | nil =>
      have hidle : (c.probeNext p.monitor.probe n).1 = c := by simp [Cycle.probeNext, hpending]
      rwa [hidle] at ih
    | cons endpoint rest =>
      obtain ⟨moves, hnone, hmoves⟩ := ih
      rw [Cycle.probeNext_eq_probeOne _ hpending] at hmoves
      exact ⟨.probe endpoint n :: moves, hnone, hmoves⟩

/-- A whole cycle of the monitor is one that nothing interrupts. -/
theorem runCycle_eq_commit (p : Pool) (n : Network) :
    ∃ moves c, moves.filterMap Move.action? = [] ∧ (begin p).run moves = ⟨p, c⟩ ∧
      c.pending = [] ∧ p.commit c =
        ((p.monitor.runCycle n).1, p.withMonitor (p.monitor.runCycle n).2.1) := by
  obtain ⟨moves, hnone, hmoves⟩ :=
    run_of_advances (Cycle.advances_run p.monitor.probe (Cycle.begin p.store) n)
  exact ⟨moves, _, hnone, hmoves, rfl, rfl⟩

end InFlight

end Pool

end ZonePool

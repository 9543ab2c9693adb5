-- SUMMARY: How the gauge of available endpoints differs from the status that a commit installs.
import ZonePool.Proofs.Metrics
import ZonePool.Proofs.Pool.InFlight

/-!
# The gauge of available endpoints

A commit keeps the verdicts on current members only, while the gauge counts all
endpoints that the cycle found available. The two agree unless an endpoint that
was found available has left the tiers while the cycle was in flight: a reset or
a resync inside the cycle makes the gauge count endpoints of which the installed
status knows nothing.
-/

namespace ZonePool

/-- How many endpoints are on record as available. -/
def StatusMap.upCount (status : StatusMap) : Nat :=
  status.values.countP (·.isAvailable)

namespace Cycle

/-- How many endpoints the cycle found available that are no members of a store. -/
def strays (c : Cycle) (s : Store) : Nat :=
  (c.verdicts.filter fun ev => !s.tiers.members.contains ev.1).countP (·.2.isAvailable)

/-- The endpoints found available are those on record after a commit and those that are no members. -/
theorem available_eq {c : Cycle} (hnodup : (c.verdicts.map (·.1)).Nodup) (s : Store) :
    c.available = (s.kept c.status).upCount + c.strays s := by
  have hkept : (s.kept c.status).upCount =
      (c.verdicts.filter fun ev => s.tiers.members.contains ev.1).countP (·.2.isAvailable) := by
    rw [StatusMap.upCount, KeyMap.values, List.countP_map]
    exact ((KeyMap.entries_ofList hnodup).filter _).countP_eq _
  rw [available, hkept, strays, ← List.countP_eq_countP_filter_add]

theorem strays_eq_zero_iff {c : Cycle} {s : Store} :
    c.strays s = 0 ↔
      ∀ endpoint, (endpoint, .available) ∈ c.verdicts → ∃ tier, endpoint ∈ s.tiers.get tier := by
  simp only [strays, List.countP_eq_zero, List.mem_filter, Bool.not_eq_true', and_imp, Prod.forall,
    List.contains_eq_mem, decide_eq_false_iff_not, Tiers.mem_members]
  constructor
  · intro h endpoint hmem
    by_contra hgone
    exact h endpoint .available hmem hgone rfl
  · intro h endpoint v hmem hgone hup
    cases v with
    | available => exact hgone (h endpoint hmem)
    | unavailable => cases hup

end Cycle

namespace Pool

/-- A commit that the store takes sets the gauge. -/
theorem availableEndpoints_commit {p q : Pool} {c : Cycle} (h : p.commit c = (true, q)) :
    q.metrics.availableEndpoints = some c.available := by
  have hinstalled : (p.store.commit c.status).1 = true := by rw [← fst_commit, h]
  have hafter : q = (p.commit c).2 := by rw [h]
  have hmetrics : q.metrics = (c.commit p.store p.metrics).2.2 := by
    rw [hafter]
    rfl
  rw [hmetrics, Cycle.metrics_commit, if_pos hinstalled]
  rfl

namespace InFlight

/-- After an installed commit the gauge counts the available endpoints of the installed status and
besides them those that were found available and have left the tiers while the cycle was in flight.
When there are none of these, and so whenever the tiers are those of the snapshot, it agrees with
the status. -/
theorem available_inFlight {p q r : Pool} {c : Cycle} {moves : List Move}
    (hrun : (begin p).run moves = ⟨q, c⟩) (hdone : c.pending = [])
    (hcommit : q.commit c = (true, r)) :
    let gauge := r.metrics.sample? "addrpool_available_endpoints" ""
    let up := r.store.status.upCount
    gauge = some (up + c.strays q.store) ∧
    (gauge = some up ↔
      ∀ endpoint, (endpoint, .available) ∈ c.verdicts → ∃ tier, endpoint ∈ r.store.tiers.get tier) ∧
    (q.store.tiers = p.store.tiers → gauge = some up) := by
  intro gauge up
  have hstore : r.store = (q.store.commit c.status).2 := by rw [← store_commit, hcommit]
  have hrunning : q.store.lifecycle ≠ .stopped := by
    intro hstopped
    have hrefused := fst_commit q c
    rw [hcommit, Store.commit_of_stopped hstopped] at hrefused
    cases hrefused
  rw [Store.commit_of_not_stopped hrunning] at hstore
  have hnodup : (c.verdicts.map (·.1)).Nodup :=
    (probed_of_done hrun hdone).nodup_iff.2 (nodup_distinct _)
  have hgauge : gauge = some (up + c.strays q.store) := by
    have hup : up = (q.store.kept c.status).upCount := by simp only [up, hstore]
    rw [hup, ← Cycle.available_eq hnodup]
    exact (Metrics.sample?_available _).trans (availableEndpoints_commit hcommit)
  have hagree : gauge = some up ↔
      ∀ endpoint, (endpoint, .available) ∈ c.verdicts →
        ∃ tier, endpoint ∈ r.store.tiers.get tier := by
    have htiers : r.store.tiers = q.store.tiers := by rw [hstore]
    rw [hgauge, htiers, ← Cycle.strays_eq_zero_iff, Option.some_inj, Nat.add_eq_left]
  refine ⟨hgauge, hagree, fun hsame => hagree.2 fun endpoint hmem => ?_⟩
  have htiers : r.store.tiers = p.store.tiers := by rw [hstore, hsame]
  rw [htiers]
  exact (mem_probed_iff hrun hdone endpoint).1 (List.mem_map_of_mem hmem)

/-- Of two endpoints found available one leaves the tiers with a resync inside the cycle. -/
theorem available_inFlight_of_one_gone :
    let n : Network := { peers := [
      (.v4 ⟨10, 0, 0, 1⟩ 80, .accepting none none), (.v4 ⟨10, 0, 0, 2⟩ 80, .accepting none none)] }
    let p := create ["10.0.0.1:80"] { diffAz := ["10.0.0.2:80"] } .empty
    let f := (begin p).run [.probe "10.0.0.1:80" n, .probe "10.0.0.2:80" n,
      .act (.resync [{ endpoints := ["rest://10.0.0.3:80"] }])]
    f.cycle.strays f.pool.store = 1 ∧
      (f.pool.commit f.cycle).2.metrics.sample? "addrpool_available_endpoints" "" =
        some ((f.pool.commit f.cycle).2.store.status.upCount + 1) := by
  intro n p f
  have hcommit : f.pool.commit f.cycle = (true, (f.pool.commit f.cycle).2) :=
    Prod.ext (by rfl) rfl
  have hstrays : f.cycle.strays f.pool.store = 1 := by decide +kernel
  have hgauge := (available_inFlight (p := p) (q := f.pool) (c := f.cycle) rfl (by rfl) hcommit).1
  rw [hstrays] at hgauge
  exact ⟨hstrays, hgauge⟩

end InFlight

/-- The first cycle finds the only member available, a reset replaces it before the commit, and the
gauge shows one available endpoint where the installed status has none. -/
theorem available_counts_stray :
    let n : Network := { peers := [(.v4 ⟨10, 0, 0, 1⟩ 80, .accepting none none)] }
    let p := (create ["10.0.0.1:80"] {} .empty).run
      [.start, .probeFirst n, .reset ["10.0.0.2:80"], .endStart]
    p.store.lifecycle = .running ∧ p.store.history.length = 1 ∧ p.store.status.upCount = 0 ∧
      p.metrics.sample? "addrpool_available_endpoints" "" = some 1 := by
  decide +kernel

end Pool

end ZonePool

-- SUMMARY: What the exposition of the metrics shows, and what each recording adds to it.
import Mathlib.Algebra.GroupWithZero.Nat
import Mathlib.Data.List.Count
import ZonePool.Cycle

/-!
# Recordings

The exposition is read by the name of a metric and the label of a sample. A
counter that has counted nothing has no sample and reads as zero. Each recording
changes the metrics it is about and no other.
-/

namespace ZonePool

/-- The outcome in the label of a sample. -/
def ResyncOutcome.name : ResyncOutcome → String
  | .success => "success"
  | .error => "error"
  | .fetchError => "fetch_error"

/-- The size of one tier. -/
def TierSizes.get (s : TierSizes) : Tier → Nat
  | .default => s.default
  | .sameAz => s.sameAz
  | .diffAz => s.diffAz

theorem Tiers.get_sizes (t : Tiers) (tier : Tier) : t.sizes.get tier = (t.get tier).length := by
  cases tier <;> rfl

namespace Metrics

/-! ## Reading the exposition -/

/-- The samples of a metric. -/
def samples (m : Metrics) (name : String) : List (String × Nat) :=
  (m.families.filter (·.name = name)).flatMap (·.samples)

/-- The sample of a metric with some label. -/
def sample? (m : Metrics) (name suffix : String) : Option Nat :=
  ((m.samples name).find? (·.1 = suffix)).map (·.2)

/-- The sum over the labels of a metric. -/
def total (m : Metrics) (name : String) : Nat :=
  ((m.samples name).map (·.2)).sum

/-- The count of resyncs with an outcome, as exposed. -/
def resyncTotal (m : Metrics) (outcome : ResyncOutcome) : Nat :=
  (m.sample? "addrpool_resync_total" (label "result" outcome.name)).getD 0

/-- How many resyncs had an outcome. -/
def resyncs (m : Metrics) : ResyncOutcome → Nat
  | .success => m.resyncSuccess
  | .error => m.resyncError
  | .fetchError => m.resyncFetchError

theorem sum_counted (suffix : String) (n : Nat) : ((counted suffix n).map (·.2)).sum = n := by
  unfold counted
  split <;> simp_all

theorem find?_counted_append (suffix other : String) (n : Nat) (rest : List (String × Nat)) :
    (((counted suffix n ++ rest).find? (·.1 = other)).map (·.2)).getD 0 =
      if suffix = other then
        if n = 0 then ((rest.find? (·.1 = other)).map (·.2)).getD 0 else n
      else ((rest.find? (·.1 = other)).map (·.2)).getD 0 := by
  unfold counted
  split <;> by_cases hlabel : suffix = other <;> simp [*]

theorem total_probes (m : Metrics) : m.total "addrpool_probe_total" = m.probes := by
  simp [total, samples, families, sum_counted, probes]

theorem sample?_available (m : Metrics) :
    m.sample? "addrpool_available_endpoints" "" = m.availableEndpoints := by
  cases h : m.availableEndpoints <;> simp [sample?, samples, families, h]

theorem sample?_tier (m : Metrics) (tier : Tier) :
    m.sample? "addrpool_tier_endpoints" (label "tier" tier.name) =
      m.tierSizes.map (·.get tier) := by
  cases h : m.tierSizes with
  | none => simp [sample?, samples, families, h]
  | some s =>
    cases tier <;> simp [sample?, samples, families, h, label, Tier.name, TierSizes.get]

theorem resyncTotal_eq (m : Metrics) (outcome : ResyncOutcome) :
    m.resyncTotal outcome = m.resyncs outcome := by
  have hsamples : m.samples "addrpool_resync_total" =
      counted (label "result" "success") m.resyncSuccess ++
        (counted (label "result" "error") m.resyncError ++
          (counted (label "result" "fetch_error") m.resyncFetchError ++ [])) := by
    simp [samples, families]
  rw [resyncTotal, sample?, hsamples, find?_counted_append, find?_counted_append, find?_counted_append]
  cases outcome <;> simp +contextual [label, ResyncOutcome.name, resyncs]

/-! ## One recording -/

section

variable (m : Metrics) (verdicts : List Verdict) (count : Nat) (t : Tiers) (outcome : ResyncOutcome)

@[simp] theorem probes_countCycle : (m.countCycle verdicts).probes = m.probes + verdicts.length := by
  have hsplit : verdicts.length =
      verdicts.countP (·.isAvailable) + verdicts.countP (!·.isAvailable) := by
    rw [List.length_eq_countP_add_countP (·.isAvailable)]
    simp
  simp only [probes, countCycle, hsplit]
  omega

@[simp] theorem probes_noteAvailable : (m.noteAvailable count).probes = m.probes := rfl

@[simp] theorem probes_noteTiers : (m.noteTiers t).probes = m.probes := rfl

@[simp] theorem probes_countResync : (m.countResync outcome).probes = m.probes := by
  cases outcome <;> rfl

@[simp] theorem resyncs_countCycle : (m.countCycle verdicts).resyncs = m.resyncs := by
  funext outcome
  cases outcome <;> rfl

@[simp] theorem resyncs_noteAvailable : (m.noteAvailable count).resyncs = m.resyncs := by
  funext outcome
  cases outcome <;> rfl

@[simp] theorem resyncs_noteTiers : (m.noteTiers t).resyncs = m.resyncs := by
  funext outcome
  cases outcome <;> rfl

@[simp] theorem resyncs_countResync (other : ResyncOutcome) :
    (m.countResync outcome).resyncs other = m.resyncs other + if other = outcome then 1 else 0 := by
  cases outcome <;> cases other <;> rfl

@[simp] theorem tierSizes_countCycle : (m.countCycle verdicts).tierSizes = m.tierSizes := rfl

@[simp] theorem tierSizes_noteAvailable : (m.noteAvailable count).tierSizes = m.tierSizes := rfl

@[simp] theorem tierSizes_noteTiers : (m.noteTiers t).tierSizes = some t.sizes := rfl

@[simp] theorem tierSizes_countResync : (m.countResync outcome).tierSizes = m.tierSizes := by
  cases outcome <;> rfl

end

end Metrics

/-! ## A whole cycle -/

namespace Cycle

/-- What a cycle records when it commits; the gauge of available endpoints only if it is installed. -/
theorem metrics_commit (c : Cycle) (s : Store) (m : Metrics) :
    (c.commit s m).2.2 =
      if (s.commit c.status).1 then (m.countCycle (c.verdicts.map (·.2))).noteAvailable c.available
      else m.countCycle (c.verdicts.map (·.2)) := by
  rw [commit]
  split
  · next h => simp [h]
  · next h => simp [h]

theorem probes_commit (c : Cycle) (s : Store) (m : Metrics) :
    (c.commit s m).2.2.probes = m.probes + c.verdicts.length := by
  rw [metrics_commit]
  split <;> simp

theorem resyncs_commit (c : Cycle) (s : Store) (m : Metrics) :
    (c.commit s m).2.2.resyncs = m.resyncs := by
  rw [metrics_commit]
  split <;> simp

theorem tierSizes_commit (c : Cycle) (s : Store) (m : Metrics) :
    (c.commit s m).2.2.tierSizes = m.tierSizes := by
  rw [metrics_commit]
  split <;> simp

end Cycle

end ZonePool

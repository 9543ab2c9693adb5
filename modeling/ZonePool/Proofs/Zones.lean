-- SUMMARY: Which service endpoints the zones of a directory come with.
import ZonePool.Proofs.KeyMap
import ZonePool.Zones

/-!
# Grouping by zone

The instances of a zone may stand anywhere in the list of a directory. Grouping
keeps their service endpoints in the order of the list, and keeps no zone that
has none.
-/

namespace ZonePool

/-! ## The endpoints of a zone -/

namespace Instance

/-- The service endpoints of the instances in a zone, in the order of the instances. -/
def endpointsIn (zone : String) (instances : List Instance) : List String :=
  (instances.filter (·.zone = zone)).filterMap restEndpoint

theorem mem_endpointsIn {zone endpoint : String} {instances : List Instance} :
    endpoint ∈ endpointsIn zone instances ↔
      ∃ i ∈ instances, i.zone = zone ∧ i.restEndpoint = some endpoint := by
  simp [endpointsIn, and_assoc]

/-- The endpoints of a zone, up to their order, do not depend on the order of the instances. -/
theorem endpointsIn_perm {instances others : List Instance} (h : instances.Perm others)
    (zone : String) : (endpointsIn zone instances).Perm (endpointsIn zone others) :=
  (h.filter _).filterMap _

theorem endpointsIn_concat {zone : String} {instances : List Instance} {i : Instance} :
    endpointsIn zone (instances ++ [i]) =
      endpointsIn zone instances ++ if i.zone = zone then i.restEndpoint.toList else [] := by
  by_cases hzone : i.zone = zone
  · cases hrest : i.restEndpoint <;> simp [endpointsIn, hzone, hrest]
  · simp [endpointsIn, hzone]

/-- Some instance has a service endpoint exactly when some zone has one. -/
theorem exists_endpointsIn_ne_nil {instances : List Instance} :
    (∃ zone, endpointsIn zone instances ≠ []) ↔ ∃ i ∈ instances, i.restEndpoint.isSome := by
  simp only [ne_eq, List.eq_nil_iff_forall_not_mem, not_forall, not_not, mem_endpointsIn,
    Option.isSome_iff_exists]
  constructor
  · rintro ⟨zone, endpoint, i, hi, -, hrest⟩
    exact ⟨i, hi, endpoint, hrest⟩
  · rintro ⟨i, hi, endpoint, hrest⟩
    exact ⟨i.zone, endpoint, i, hi, rfl, hrest⟩

end Instance

/-! ## The map of zones -/

namespace Zones

open Instance (endpointsIn)

theorem ofInstances_concat {instances : List Instance} {i : Instance} :
    ofInstances (instances ++ [i]) =
      match i.restEndpoint with
      | some endpoint => (ofInstances instances).alter i.zone fun found => found.getD [] ++ [endpoint]
      | none => ofInstances instances := by
  rw [ofInstances, List.foldl_append]
  rfl

/-- Grouping keeps exactly the zones with a service endpoint, each with all of them. -/
theorem get?_ofInstances (instances : List Instance) (zone : String) :
    (ofInstances instances).get? zone =
      if endpointsIn zone instances = [] then none else some (endpointsIn zone instances) := by
  induction instances using List.reverseRecOn with
  | nil => rfl
  | append_singleton instances i ih =>
    rw [ofInstances_concat, Instance.endpointsIn_concat]
    cases hrest : i.restEndpoint with
    | none => simpa using ih
    | some endpoint =>
      by_cases hzone : i.zone = zone
      · subst hzone
        have hbefore : ((ofInstances instances).get? i.zone).getD [] = endpointsIn i.zone instances := by
          rw [ih]
          split
          · next hnone => exact hnone.symm
          · rfl
        simp [KeyMap.get?_alter, hbefore]
      · simpa [KeyMap.get?_alter, hzone, Ne.symm hzone] using ih

theorem get?_ofInstances_eq_some {instances : List Instance} {zone : String}
    {endpoints : List String} :
    (ofInstances instances).get? zone = some endpoints ↔
      endpoints ≠ [] ∧ endpoints = endpointsIn zone instances := by
  rw [get?_ofInstances]
  grind

theorem isEmpty_ofInstances {instances : List Instance} :
    (ofInstances instances).isEmpty = true ↔ ∀ zone, endpointsIn zone instances = [] := by
  simp [KeyMap.isEmpty_iff, get?_ofInstances]

end Zones

end ZonePool

-- SUMMARY: What the two buckets of a classification have to do with the home addresses.
import Mathlib.Order.Bounds.Defs
import ZonePool.Proofs.Zones

/-!
# Classifications

A classification fits a list of home addresses when the zone in the bucket of
the own zone shares an address with it and the zone in the other bucket shares
none. Sorting zones into buckets one by one keeps this, whatever zones they are
and however often a zone gives way to a later one.

Which zones a classification names is a law of its own: each zone is named in
the bucket of its addresses and nowhere else, and the last one in the order of
the names stays.
-/

namespace ZonePool

namespace Classification

/-! ## Fitting classifications -/

/-- The buckets hold lists without repetition that lie on the right side of the home addresses. -/
structure Fits (home : List String) (c : Classification) : Prop where
  nodup_sameAz : ∀ members, c.sameAzMembers = some members → members.Nodup
  nodup_diffAz : ∀ members, c.diffAzMembers = some members → members.Nodup
  sameAz_shares : ∀ members, c.sameAzMembers = some members → ∃ a ∈ members, a ∈ home
  diffAz_apart : ∀ members, c.diffAzMembers = some members → ∀ a ∈ members, a ∉ home

theorem fits_empty {home : List String} : Fits home {} where
  nodup_sameAz := by simp [sameAzMembers]
  nodup_diffAz := by simp [diffAzMembers]
  sameAz_shares := by simp [sameAzMembers]
  diffAz_apart := by simp [diffAzMembers]

theorem fits_add {home : List String} {c : Classification} (h : c.Fits home) (zone : String)
    (addresses : List String) : (c.add home zone addresses).Fits home := by
  unfold add
  simp only
  split
  · next hshare =>
    refine { h with nodup_sameAz := ?_, sameAz_shares := ?_ }
    · intro members heq
      cases heq
      exact nodup_distinct addresses
    · intro members heq
      cases heq
      simpa using hshare
  · next hapart =>
    refine { h with nodup_diffAz := ?_, diffAz_apart := ?_ }
    · intro members heq
      cases heq
      exact nodup_distinct addresses
    · intro members heq a ha hhome
      cases heq
      refine hapart (List.any_eq_true.2 ⟨a, ha, ?_⟩)
      simpa using hhome

/-- What sorting one more zone keeps holds of the whole pass; the entries are those sorted so far. -/
theorem ofZones_induction {home : List String}
    {P : List (String × List String) → Classification → Prop} (hnil : P [] {})
    (hstep : ∀ entries c z, P entries c → P (entries ++ [z]) (c.add home z.1 z.2)) (zones : Zones) :
    P zones.entries (ofZones zones home) := by
  unfold ofZones
  induction zones.entries using List.reverseRecOn with
  | nil => exact hnil
  | append_singleton entries z ih =>
    rw [List.foldl_append, List.foldl_cons, List.foldl_nil]
    exact hstep entries _ z ih

theorem fits_ofZones (zones : Zones) (home : List String) : (ofZones zones home).Fits home := by
  refine ofZones_induction (P := fun _ c => c.Fits home) fits_empty ?_ zones
  intro _ c z h
  exact fits_add h z.1 z.2

end Classification

/-! ## The bucket of some addresses -/

/-- The bucket into which a zone with these addresses falls. -/
def Bucket.ofAddresses (home addresses : List String) : Bucket :=
  if addresses.any (home.contains ·) then .sameAz else .diffAz

namespace Bucket

theorem ofAddresses_eq_sameAz {home addresses : List String} :
    ofAddresses home addresses = .sameAz ↔ ∃ a ∈ addresses, a ∈ home := by
  simp [ofAddresses]

theorem ofAddresses_eq_diffAz {home addresses : List String} :
    ofAddresses home addresses = .diffAz ↔ ∀ a ∈ addresses, a ∉ home := by
  simp [ofAddresses]

theorem ofAddresses_distinct (home addresses : List String) :
    ofAddresses home (distinct addresses) = ofAddresses home addresses := by
  have hany : (distinct addresses).any (home.contains ·) = addresses.any (home.contains ·) := by
    rw [Bool.eq_iff_iff, List.any_eq_true, List.any_eq_true]
    simp only [mem_distinct]
  rw [ofAddresses, ofAddresses, hany]

end Bucket

namespace Classification

/-- What is in a bucket. -/
def get (c : Classification) : Bucket → Option Placed
  | .sameAz => c.sameAz
  | .diffAz => c.diffAz

/-- The zones that were sorted into a bucket: those that gave way there, then the one that stayed. -/
def sorted (c : Classification) (b : Bucket) : List String :=
  (c.overwrites.filter (·.bucket = b)).map (·.overwritten) ++ (c.get b).toList.map (·.zone)

/-! ## One more zone -/

theorem get_add (c : Classification) (home : List String) (zone : String) (addresses : List String)
    (b : Bucket) :
    (c.add home zone addresses).get b =
      if Bucket.ofAddresses home addresses = b then some ⟨zone, distinct addresses⟩ else c.get b := by
  rw [← Bucket.ofAddresses_distinct, Bucket.ofAddresses, add]
  split <;> cases b <;> simp [get]

theorem overwrites_add (c : Classification) (home : List String) (zone : String)
    (addresses : List String) :
    (c.add home zone addresses).overwrites =
      c.overwrites ++ displaced (.ofAddresses home addresses) zone
        (c.get (.ofAddresses home addresses)) := by
  rw [← Bucket.ofAddresses_distinct, Bucket.ofAddresses, add]
  split <;> rfl

/-- A zone comes last in its bucket, and the other bucket does not hear of it. -/
theorem sorted_add (c : Classification) (home : List String) (zone : String)
    (addresses : List String) (b : Bucket) :
    (c.add home zone addresses).sorted b =
      c.sorted b ++ if Bucket.ofAddresses home addresses = b then [zone] else [] := by
  rw [sorted, sorted, overwrites_add, get_add]
  by_cases hb : Bucket.ofAddresses home addresses = b
  · subst hb
    cases hget : c.get (.ofAddresses home addresses) <;> simp [displaced]
  · cases hget : c.get (.ofAddresses home addresses) <;> simp [displaced, hb]

/-! ## All zones -/

/-- The zones whose addresses fall into a bucket. -/
def fallingInto (home : List String) (b : Bucket) (zones : Zones) : List (String × List String) :=
  zones.entries.filter fun z => Bucket.ofAddresses home z.2 = b

/-- The last zone stays. -/
theorem get_ofZones (zones : Zones) (home : List String) (b : Bucket) :
    (ofZones zones home).get b =
      (fallingInto home b zones).getLast?.map fun z => ⟨z.1, distinct z.2⟩ := by
  refine ofZones_induction
    (P := fun entries c => c.get b =
      (entries.filter fun z => Bucket.ofAddresses home z.2 = b).getLast?.map fun z =>
        ⟨z.1, distinct z.2⟩)
    (by cases b <;> rfl) ?_ zones
  intro entries c z ih
  rw [get_add, ih, List.filter_append]
  by_cases hb : Bucket.ofAddresses home z.2 = b <;> simp [hb]

/-- Every zone is named in the bucket of its addresses, in the order of the names. -/
theorem sorted_ofZones (zones : Zones) (home : List String) (b : Bucket) :
    (ofZones zones home).sorted b = (fallingInto home b zones).map (·.1) := by
  refine ofZones_induction
    (P := fun entries c => c.sorted b =
      (entries.filter fun z => Bucket.ofAddresses home z.2 = b).map (·.1))
    (by cases b <;> rfl) ?_ zones
  intro entries c z ih
  rw [sorted_add, ih, List.filter_append, List.map_append]
  by_cases hb : Bucket.ofAddresses home z.2 = b <;> simp [hb]

/-! ## The zones of a list of instances -/

open Instance (endpointsIn)

/-- A list of instances has endpoints for a zone, and they fall into a bucket. -/
def Offers (instances : List Instance) (home : List String) (b : Bucket) (zone : String) : Prop :=
  endpointsIn zone instances ≠ [] ∧ Bucket.ofAddresses home (endpointsIn zone instances) = b

theorem mem_fallingInto {instances : List Instance} {home : List String} {b : Bucket}
    {z : String × List String} :
    z ∈ fallingInto home b (.ofInstances instances) ↔
      Offers instances home b z.1 ∧ z.2 = endpointsIn z.1 instances := by
  obtain ⟨zone, endpoints⟩ := z
  rw [fallingInto, List.mem_filter, ← KeyMap.get?_eq_some_iff, Zones.get?_ofInstances_eq_some, Offers]
  grind

theorem Offers.mem_fallingInto {instances : List Instance} {home : List String} {b : Bucket}
    {zone : String} (h : Offers instances home b zone) :
    (zone, endpointsIn zone instances) ∈ fallingInto home b (.ofInstances instances) :=
  Classification.mem_fallingInto.2 ⟨h, rfl⟩

theorem mem_sorted {instances : List Instance} {home : List String} {b : Bucket} {zone : String} :
    zone ∈ (ofZones (.ofInstances instances) home).sorted b ↔ Offers instances home b zone := by
  rw [sorted_ofZones, List.mem_map]
  constructor
  · rintro ⟨z, hz, rfl⟩
    exact (mem_fallingInto.1 hz).1
  · intro h
    exact ⟨_, h.mem_fallingInto, rfl⟩

/-- The zone that stays in a bucket is the one with the greatest name. -/
theorem get_ofInstances (instances : List Instance) (home : List String) (b : Bucket) :
    (∃ zone, IsGreatest {z | Offers instances home b z} zone ∧
      (ofZones (.ofInstances instances) home).get b =
        some ⟨zone, distinct (endpointsIn zone instances)⟩) ∨
    (∀ zone, ¬Offers instances home b zone) ∧
      (ofZones (.ofInstances instances) home).get b = none := by
  rw [get_ofZones]
  cases hlast : (fallingInto home b (.ofInstances instances)).getLast? with
  | none =>
    right
    refine ⟨fun zone hoffers => ?_, rfl⟩
    have hmem := hoffers.mem_fallingInto
    rw [List.getLast?_eq_none_iff.1 hlast] at hmem
    cases hmem
  | some z =>
    left
    obtain ⟨hoffers, hendpoints⟩ := mem_fallingInto.1 (List.mem_of_getLast? hlast)
    have hgreatest := (KeyMap.of_getLast?_filter hlast).2.2
    refine ⟨z.1, ⟨hoffers, fun zone hzone => ?_⟩, by rw [← hendpoints]; rfl⟩
    have hmem := List.mem_filter.1 (Offers.mem_fallingInto hzone)
    exact hgreatest _ hmem.1 hmem.2

end Classification

end ZonePool

-- SUMMARY: How far a resync depends on the order in which a directory lists its instances.
import Mathlib.Data.Option.Basic
import ZonePool.Proofs.Pool.Resync

/-!
# The order of instances

A directory may list its instances in any order. Which zones there are, on which
side of `Default` each of them falls and which of them stays on a side is a
matter of what is listed and not of where it stands, so neither the outcome of a
resync nor its warnings depend on the order. Only the order of the members in a
zone tier does, and there it is the order within one zone that counts.
-/

namespace ZonePool

open Instance (endpointsIn)

/-! ## Members in any order -/

theorem distinct_perm {xs ys : List String} (h : xs.Perm ys) :
    (distinct xs).Perm (distinct ys) := by
  rw [List.perm_ext_iff_of_nodup (nodup_distinct xs) (nodup_distinct ys)]
  intro a
  rw [mem_distinct, mem_distinct, h.mem_iff]

/-- Whether a zone shares an address is a matter of its members only. -/
theorem Bucket.ofAddresses_perm (home : List String) {xs ys : List String} (h : xs.Perm ys) :
    ofAddresses home xs = ofAddresses home ys := by
  rw [ofAddresses, ofAddresses, h.any_eq]

/-- The same zone with the same members, in any order. -/
def Placed.Alike (a b : Placed) : Prop :=
  a.zone = b.zone ∧ a.members.Perm b.members

theorem Placed.Alike.members {x y : Option Placed} (h : Option.Rel Alike x y)
    (before : List String) :
    ((x.map (·.members)).getD before).Perm ((y.map (·.members)).getD before) := by
  cases h with
  | some halike => exact halike.2
  | none => exact .refl before

namespace Classification

/-- The same zones stay and the same ones give way, in the same order. -/
structure Alike (c d : Classification) : Prop where
  get : ∀ b, Option.Rel Placed.Alike (c.get b) (d.get b)
  overwrites : c.overwrites = d.overwrites

theorem alike_empty : Alike {} {} where
  get b := by cases b <;> exact .none
  overwrites := rfl

theorem displaced_of_alike {x y : Option Placed} (h : Option.Rel Placed.Alike x y) (b : Bucket)
    (zone : String) : displaced b zone x = displaced b zone y := by
  cases h with
  | some halike => rw [displaced, displaced, halike.1]
  | none => rfl

/-- One more zone with the same members in another order. -/
theorem Alike.add {c d : Classification} (h : c.Alike d) (home : List String) (zone : String)
    {xs ys : List String} (hperm : xs.Perm ys) :
    (c.add home zone xs).Alike (d.add home zone ys) where
  get b := by
    rw [get_add, get_add, Bucket.ofAddresses_perm home hperm]
    split
    · exact .some ⟨rfl, distinct_perm hperm⟩
    · exact h.get b
  overwrites := by
    rw [overwrites_add, overwrites_add, h.overwrites, Bucket.ofAddresses_perm home hperm,
      displaced_of_alike (h.get _)]

theorem alike_ofZones {zones others : Zones} (home : List String)
    (h : zones.entries.Forall₂ (fun z w => z.1 = w.1 ∧ z.2.Perm w.2) others.entries) :
    (ofZones zones home).Alike (ofZones others home) := by
  unfold ofZones
  generalize zones.entries = zs, others.entries = ws at h
  suffices hfold : ∀ c d : Classification, c.Alike d →
      (zs.foldl (fun c z => c.add home z.1 z.2) c).Alike
        (ws.foldl (fun c z => c.add home z.1 z.2) d) from hfold {} {} alike_empty
  induction h with
  | nil => exact fun c d hcd => hcd
  | @cons z w zs ws hzw _ ih =>
    intro c d hcd
    obtain ⟨hname, hperm⟩ := hzw
    rw [List.foldl_cons, List.foldl_cons, ← hname]
    exact ih _ _ (hcd.add home z.1 hperm)

end Classification

/-- Grouping the same instances in another order gives the same zones, each with the same endpoints in
some order. -/
theorem Zones.forall₂_ofInstances {instances others : List Instance} (h : instances.Perm others) :
    (ofInstances instances).entries.Forall₂ (fun z w => z.1 = w.1 ∧ z.2.Perm w.2)
      (ofInstances others).entries := by
  -- The same argument from either list to the other one.
  have hfind : ∀ {xs ys : List Instance}, xs.Perm ys → ∀ zone endpoints,
      (ofInstances xs).get? zone = some endpoints →
        (ofInstances ys).get? zone = some (endpointsIn zone ys) ∧
          endpoints.Perm (endpointsIn zone ys) := by
    intro xs ys hperm zone endpoints hget
    obtain ⟨hne, rfl⟩ := get?_ofInstances_eq_some.1 hget
    have hlisted := Instance.endpointsIn_perm hperm zone
    refine ⟨get?_ofInstances_eq_some.2 ⟨fun hnil => hne ?_, rfl⟩, hlisted⟩
    exact List.Perm.eq_nil (hnil ▸ hlisted)
  refine KeyMap.forall₂_entries (fun zone endpoints hget => ?_) (fun zone endpoints hget => ?_)
  · exact ⟨_, hfind h zone endpoints hget⟩
  · obtain ⟨hother, hperm⟩ := hfind h.symm zone endpoints hget
    exact ⟨_, hother, hperm.symm⟩

theorem Zones.ofInstances_congr {instances others : List Instance}
    (h : ∀ zone, endpointsIn zone instances = endpointsIn zone others) :
    ofInstances instances = ofInstances others :=
  KeyMap.ext_get? fun zone => by rw [get?_ofInstances, get?_ofInstances, h]

/-- Tiers with the same members have the same sizes. -/
theorem Tiers.sizes_perm {t u : Tiers} (h : ∀ tier, (t.get tier).Perm (u.get tier)) :
    t.sizes = u.sizes := by
  rw [sizes, sizes, TierSizes.mk.injEq]
  exact ⟨(h .default).length_eq, (h .sameAz).length_eq, (h .diffAz).length_eq⟩

namespace Pool

/-! ## Resyncs -/

/-- A resync looks at nothing of the instances but their zones. -/
theorem resync_congr {instances others : List Instance}
    (h : Zones.ofInstances instances = Zones.ofInstances others) (p : Pool) :
    p.resync instances = p.resync others := by
  rw [resync, resync, h]

/-- The order of instances of different zones does not matter at all. -/
theorem resync_of_same_in_zones {instances others : List Instance}
    (h : ∀ zone, instances.filter (·.zone = zone) = others.filter (·.zone = zone)) (p : Pool) :
    p.resync instances = p.resync others := by
  refine resync_congr (Zones.ofInstances_congr fun zone => ?_) p
  rw [endpointsIn, endpointsIn, h]

theorem classification_perm {instances others : List Instance} (h : instances.Perm others)
    (p : Pool) : (p.classification instances).Alike (p.classification others) :=
  Classification.alike_ofZones _ (Zones.forall₂_ofInstances h)

theorem assign_perm {c d : Classification} (h : c.Alike d) (s : Store) (tier : Tier) :
    ((s.assign c.sameAzMembers c.diffAzMembers).tiers.get tier).Perm
      ((s.assign d.sameAzMembers d.diffAzMembers).tiers.get tier) := by
  cases tier with
  | default => exact .refl _
  | sameAz => exact Placed.Alike.members (h.get .sameAz) s.tiers.sameAz
  | diffAz => exact Placed.Alike.members (h.get .diffAz) s.tiers.diffAz

/-- The same store with other tiers. -/
def withTiers (p : Pool) (tiers : Tiers) : Pool :=
  p.withStore { p.store with tiers }

/-- Tiers that differ in the order of their members leave pools that differ in nothing else. -/
theorem countResync_noteTiers_perm (p : Pool) {t u : Tiers}
    (h : ∀ tier, (t.get tier).Perm (u.get tier)) :
    ((p.withTiers u).countResync .success).noteTiers =
      (((p.withTiers t).countResync .success).noteTiers).withTiers u := by
  have hsizes : t.sizes = u.sizes := Tiers.sizes_perm h
  simp [withTiers, withStore, countResync, withMetrics, noteTiers, store, metrics,
    Metrics.noteTiers, Metrics.countResync, hsizes]

/-- The same instances in another order make the same outcome with the same warnings, and the same
pool but for the order of the members in its tiers. With the order kept within each zone the pool is
the very same. -/
theorem resync_perm {instances others : List Instance} (h : instances.Perm others) (p : Pool) :
    (p.resync instances).1 = (p.resync others).1 ∧
    (∀ tier, ((p.resync instances).2.store.tiers.get tier).Perm
      ((p.resync others).2.store.tiers.get tier)) ∧
    (p.resync others).2 =
      (p.resync instances).2.withTiers (p.resync others).2.store.tiers ∧
    ((∀ zone, instances.filter (·.zone = zone) = others.filter (·.zone = zone)) →
      p.resync instances = p.resync others) := by
  have hlisted := fun zone => Instance.endpointsIn_perm h zone
  rw [← and_assoc, ← and_assoc]
  refine ⟨?_, fun hsame => resync_of_same_in_zones hsame p⟩
  by_cases hsome : ∃ zone, endpointsIn zone instances ≠ []
  · have hother : ∃ zone, endpointsIn zone others ≠ [] := by
      obtain ⟨zone, hne⟩ := hsome
      exact ⟨zone, fun hnil => hne (List.Perm.eq_nil (hnil ▸ hlisted zone))⟩
    have halike := classification_perm h p
    have hmembers := assign_perm halike p.store
    rw [resync_eq_of_endpoint hsome, resync_eq_of_endpoint hother]
    refine ⟨⟨?_, hmembers⟩, countResync_noteTiers_perm p hmembers⟩
    rw [halike.overwrites]
  · have hnone : ∀ zone, endpointsIn zone instances = [] := by simpa using hsome
    have hother : ∀ zone, endpointsIn zone others = [] := fun zone =>
      List.Perm.eq_nil (hnone zone ▸ (hlisted zone).symm)
    rw [resync_of_no_endpoint hnone, resync_of_no_endpoint hother]
    exact ⟨⟨rfl, fun tier => .refl _⟩, rfl⟩

/-- Three instances in two zones: in the reverse order the members of a zone change places, and with
the order kept within the zones nothing does. -/
theorem resync_perm_of_two_zones :
    let p := create ["10.0.0.1:80"] {} .empty
    let az1 : DataCenter := { zone := "az1" }
    let home : Instance := { endpoints := ["rest://10.0.0.1:80"], dataCenter := some az1 }
    let near : Instance := { endpoints := ["rest://10.0.0.3:80"], dataCenter := some az1 }
    let away : Instance := { endpoints := ["rest://10.0.0.2:80"] }
    (p.resync [home, away, near]).1 = (p.resync [near, away, home]).1 ∧
    (p.resync [home, away, near]).2.store.tiers.sameAz = ["10.0.0.1:80", "10.0.0.3:80"] ∧
    (p.resync [near, away, home]).2.store.tiers.sameAz = ["10.0.0.3:80", "10.0.0.1:80"] ∧
    p.resync [home, away, near] = p.resync [away, home, near] := by
  intro p az1 home near away
  have hreverse : [home, away, near].Perm [near, away, home] := List.reverse_perm _ |>.symm
  have hswap : [home, away, near].Perm [away, home, near] := .swap away home [near]
  have hkept : ∀ zone, [home, away, near].filter (·.zone = zone) =
      [away, home, near].filter (·.zone = zone) := by
    intro zone
    have hhome : home.zone = "az1" := by decide
    have haway : away.zone ≠ "az1" := by decide
    simp only [List.filter_cons, List.filter_nil, hhome]
    by_cases haz1 : "az1" = zone
    · subst haz1
      simp [haway]
    · simp [haz1]
  exact ⟨(resync_perm hreverse p).1, by decide +kernel, by decide +kernel,
    (resync_perm hswap p).2.2.2 hkept⟩

end Pool

end ZonePool

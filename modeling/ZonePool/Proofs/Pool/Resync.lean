-- SUMMARY: Which zones a resync puts into the zone tiers of a pool, and what it leaves alone.
import Mathlib.Data.Set.Basic
import ZonePool.Pool
import ZonePool.Proofs.Classification
import ZonePool.Proofs.Net.RestUri

/-!
# Resyncs

A resync sorts the zones of a directory by whether they share an address with
`Default`. Of the zones on either side the one with the greatest name sets the
members of the tier, and a side without a zone keeps the tier as it is. The
comparison is one of texts: an endpoint is listed the way its URI is read, so an
address of `Default` that is spelled in another way is not found in its zone.
-/

namespace ZonePool.Pool

open Instance (endpointsIn)
open Net (RestUri.endpoint? RestUri.writeEndpoint RestUri.isPlain RestUri.endpoint?_writeEndpoint)

/-! ## Both outcomes -/

/-- How a resync sorts the zones of some instances. -/
def classification (p : Pool) (instances : List Instance) : Classification :=
  .ofZones (.ofInstances instances) p.store.tiers.default

theorem resync_of_no_endpoint {instances : List Instance}
    (h : ∀ zone, endpointsIn zone instances = []) (p : Pool) :
    p.resync instances = (.error .noUsableEndpoints, p.countResync .error) := by
  rw [resync, if_pos (Zones.isEmpty_ofInstances.2 h)]

theorem resync_eq_of_endpoint {instances : List Instance}
    (h : ∃ zone, endpointsIn zone instances ≠ []) (p : Pool) :
    let c := p.classification instances
    p.resync instances = (.ok c.overwrites,
      ((p.withStore (p.store.assign c.sameAzMembers c.diffAzMembers)).countResync
        .success).noteTiers) := by
  have hsome : ¬(Zones.ofInstances instances).isEmpty = true := by
    rw [Zones.isEmpty_ofInstances]
    exact not_forall.2 h
  rw [resync, if_neg hsome]
  rfl

theorem resync_of_endpoint {instances : List Instance}
    (h : ∃ zone, endpointsIn zone instances ≠ []) (p : Pool) :
    let c := p.classification instances
    ∃ metrics, p.resync instances = (.ok c.overwrites,
      (p.withStore (p.store.assign c.sameAzMembers c.diffAzMembers)).withMetrics metrics) :=
  ⟨_, resync_eq_of_endpoint h p⟩

/-- A resync succeeds exactly when some instance has a service endpoint. -/
theorem fst_resync_eq_ok_iff {p : Pool} {instances : List Instance} :
    (∃ overwrites, (p.resync instances).1 = .ok overwrites) ↔
      ∃ i ∈ instances, i.restEndpoint.isSome := by
  rw [← Instance.exists_endpointsIn_ne_nil]
  constructor
  · rintro ⟨overwrites, hok⟩
    by_contra hnone
    rw [resync_of_no_endpoint (by simpa using hnone)] at hok
    cases hok
  · intro hsome
    obtain ⟨metrics, hresync⟩ := resync_of_endpoint hsome p
    exact ⟨_, congrArg Prod.fst hresync⟩

theorem resync_of_error {p : Pool} {instances : List Instance} {failure : Failure}
    (h : (p.resync instances).1 = .error failure) :
    failure = .noUsableEndpoints ∧ (p.resync instances).2 = p.countResync .error := by
  by_cases hsome : ∃ zone, endpointsIn zone instances ≠ []
  · obtain ⟨metrics, hresync⟩ := resync_of_endpoint hsome p
    rw [hresync] at h
    cases h
  · have hresync := resync_of_no_endpoint (by simpa using hsome) p
    rw [hresync] at h ⊢
    cases h
    exact ⟨rfl, rfl⟩

theorem resync_of_ok {p q : Pool} {instances : List Instance} {overwrites : List Overwrite}
    (h : p.resync instances = (.ok overwrites, q)) :
    let c := p.classification instances
    overwrites = c.overwrites ∧
      q = ((p.withStore (p.store.assign c.sameAzMembers c.diffAzMembers)).countResync
        .success).noteTiers := by
  by_cases hsome : ∃ zone, endpointsIn zone instances ≠ []
  · rw [resync_eq_of_endpoint hsome] at h
    cases h
    exact ⟨rfl, rfl⟩
  · rw [resync_of_no_endpoint (by simpa using hsome)] at h
    cases h

/-! ## The zone tiers -/

/-- The zone with the greatest name gives a tier its members, each once; without a zone the tier
stays as it was. -/
def GreatestSets (zones : Set String) (members : String → List String)
    (before after : List String) : Prop :=
  (∃ zone, IsGreatest zones zone ∧ after = distinct (members zone)) ∨ zones = ∅ ∧ after = before

theorem greatestSets_classification (p : Pool) (instances : List Instance) (b : Bucket)
    (before : List String) :
    GreatestSets {zone | Classification.Offers instances p.store.tiers.default b zone}
      (endpointsIn · instances) before
      ((((p.classification instances).get b).map (·.members)).getD before) := by
  rcases Classification.get_ofInstances instances p.store.tiers.default b with
    ⟨zone, hgreatest, hget⟩ | ⟨hnone, hget⟩
  · exact .inl ⟨zone, hgreatest, by rw [classification, hget]; rfl⟩
  · exact .inr ⟨Set.eq_empty_of_forall_notMem hnone, by rw [classification, hget]; rfl⟩

/-- Without any service endpoint a resync fails and changes nothing. Otherwise it succeeds, and the
greatest zone on either side of `Default` sets its tier; nothing else changes but the metrics. -/
theorem resync_tiers (p : Pool) (instances : List Instance) :
    let listed := fun zone => endpointsIn zone instances
    let t := p.store.tiers
    ((∀ zone, listed zone = []) →
      ∃ metrics, p.resync instances = (.error .noUsableEndpoints, p.withMetrics metrics)) ∧
    ((∃ zone, listed zone ≠ []) →
      ∃ overwrites sameAz diffAz metrics,
        p.resync instances = (.ok overwrites,
          (p.withStore { p.store with tiers := ⟨t.default, sameAz, diffAz⟩ }).withMetrics metrics) ∧
        GreatestSets {zone | listed zone ≠ [] ∧ ∃ a ∈ listed zone, a ∈ t.default} listed
          t.sameAz sameAz ∧
        GreatestSets {zone | listed zone ≠ [] ∧ ∀ a ∈ listed zone, a ∉ t.default} listed
          t.diffAz diffAz) := by
  intro listed t
  refine ⟨fun hnone => ⟨_, resync_of_no_endpoint hnone p⟩, fun hsome => ?_⟩
  obtain ⟨metrics, hresync⟩ := resync_of_endpoint hsome p
  have hsame := greatestSets_classification p instances .sameAz t.sameAz
  have hdiff := greatestSets_classification p instances .diffAz t.diffAz
  simp only [Classification.Offers, Bucket.ofAddresses_eq_sameAz] at hsame
  simp only [Classification.Offers, Bucket.ofAddresses_eq_diffAz] at hdiff
  exact ⟨_, _, _, metrics, hresync, hsame, hdiff⟩

/-- Two zones share an address with `Default`, and the instances of one are not next to each other. -/
theorem resync_tiers_of_two_home_zones :
    let p := create ["10.0.0.1:80", "10.0.0.2:80"] {} .empty
    let instances : List Instance := [
      { endpoints := ["rest://10.0.0.3:80"], dataCenter := some { zone := "az2" } },
      { endpoints := ["rest://10.0.0.2:80"], dataCenter := some { zone := "az1" } },
      { endpoints := ["rest://10.0.0.1:80"], dataCenter := some { zone := "az2" } }]
    endpointsIn "az2" instances ≠ [] ∧
      ∃ overwrites q, p.resync instances = (.ok overwrites, q) ∧
        q.store.tiers.sameAz = ["10.0.0.3:80", "10.0.0.1:80"] := by
  intro p instances
  have haz2 : endpointsIn "az2" instances = ["10.0.0.3:80", "10.0.0.1:80"] := by decide +kernel
  have hne : endpointsIn "az2" instances ≠ [] := by simp [haz2]
  obtain ⟨overwrites, sameAz, diffAz, metrics, hresync, hsame, -⟩ :=
    (resync_tiers p instances).2 ⟨"az2", hne⟩
  refine ⟨hne, overwrites, _, hresync, ?_⟩
  have hset : "az2" ∈ {zone | endpointsIn zone instances ≠ [] ∧
      ∃ a ∈ endpointsIn zone instances, a ∈ p.store.tiers.default} :=
    ⟨hne, "10.0.0.1:80", by simp [haz2], by decide⟩
  rcases hsame with ⟨zone, ⟨⟨hzone, -⟩, hgreatest⟩, hmembers⟩ | ⟨hempty, -⟩
  · obtain ⟨endpoint, hmem⟩ := List.exists_mem_of_ne_nil _ hzone
    obtain ⟨i, hi, rfl, -⟩ := Instance.mem_endpointsIn.1 hmem
    have hname : i.zone = "az2" ∨ i.zone = "az1" := by
      simp only [instances, List.mem_cons, List.not_mem_nil, or_false] at hi
      rcases hi with rfl | rfl | rfl
      · exact .inl (by decide)
      · exact .inr (by decide)
      · exact .inl (by decide)
    rcases hname with hname | hname
    · rw [hname] at hmembers
      exact (hmembers.trans (congrArg distinct haz2)).trans (by decide)
    · exact absurd (hgreatest hset) (by rw [hname]; decide)
  · exact absurd hset (hempty ▸ Set.notMem_empty "az2")

/-! ## Spellings -/

/-- A resync succeeds and sorts a zone to the side of `Default`, and not to the other one. -/
def SortsHome (p : Pool) (instances : List Instance) (zone : String) : Prop :=
  let c := p.classification instances
  (∃ metrics, p.resync instances = (.ok c.overwrites,
    (p.withStore (p.store.assign c.sameAzMembers c.diffAzMembers)).withMetrics metrics)) ∧
  zone ∈ c.sorted .sameAz ∧ zone ∉ c.sorted .diffAz

/-- A zone with a service endpoint is on the side of `Default` exactly when one of its endpoints is
listed there. -/
theorem sortsHome_iff {p : Pool} {instances : List Instance} {i : Instance} {endpoint : String}
    (hi : i ∈ instances) (hrest : i.restEndpoint = some endpoint) :
    p.SortsHome instances i.zone ↔
      ∃ a ∈ endpointsIn i.zone instances, a ∈ p.store.tiers.default := by
  have hmem : endpoint ∈ endpointsIn i.zone instances :=
    Instance.mem_endpointsIn.2 ⟨i, hi, rfl, hrest⟩
  have hne : endpointsIn i.zone instances ≠ [] := List.ne_nil_of_mem hmem
  constructor
  · rintro ⟨-, hsame, -⟩
    exact Bucket.ofAddresses_eq_sameAz.1 (Classification.mem_sorted.1 hsame).2
  · intro hshare
    have hsame := Bucket.ofAddresses_eq_sameAz.2 hshare
    refine ⟨resync_of_endpoint ⟨_, hne⟩ p, Classification.mem_sorted.2 ⟨hne, hsame⟩, fun hdiff => ?_⟩
    have hother := (Classification.mem_sorted.1 hdiff).2
    rw [hsame] at hother
    cases hother

theorem restEndpoint_of_only {i : Instance} {uri : String} (h : i.endpoints = [uri]) :
    i.restEndpoint = RestUri.endpoint? uri := by
  rw [Instance.restEndpoint, h]
  exact Option.or_none

/-- An instance listed under an address sorts its zone home wherever `Default` has the address as
reading the URI spells it; that `Default` has the address itself is enough for those spelled that
way and for no other, and a plain host with a port without leading zeros is. -/
theorem sortsHome_of_listed {a e : String} (he : RestUri.endpoint? ("rest://" ++ a) = some e) :
    (∀ (p : Pool) (instances : List Instance), ∀ i ∈ instances, i.endpoints = ["rest://" ++ a] →
      e ∈ p.store.tiers.default → p.SortsHome instances i.zone) ∧
    ((∀ (p : Pool) (instances : List Instance), ∀ i ∈ instances, i.endpoints = ["rest://" ++ a] →
      a ∈ p.store.tiers.default → p.SortsHome instances i.zone) ↔ e = a) ∧
    ∀ host port, host ≠ [] → (∀ c ∈ host, RestUri.isPlain c = true) →
      (∀ n ∈ port, n < UInt16.size) → a = String.ofList (RestUri.writeEndpoint host port) → e = a := by
  have hhome : ∀ (p : Pool) (instances : List Instance), ∀ i ∈ instances,
      i.endpoints = ["rest://" ++ a] → e ∈ p.store.tiers.default → p.SortsHome instances i.zone := by
    intro p instances i hi honly hdefault
    have hrest : i.restEndpoint = some e := (restEndpoint_of_only honly).trans he
    exact (sortsHome_iff hi hrest).2 ⟨e, Instance.mem_endpointsIn.2 ⟨i, hi, rfl, hrest⟩, hdefault⟩
  refine ⟨hhome, ⟨fun hall => ?_, fun heq => ?_⟩, ?_⟩
  · -- A pool with this address alone, and no other instance.
    let p := create [a] {} .empty
    let i : Instance := { endpoints := ["rest://" ++ a] }
    have hdefault : ∀ b, b ∈ p.store.tiers.default ↔ b = a := fun b => by
      rw [show p.store.tiers.default = distinct (distinct [a]) from rfl, mem_distinct, mem_distinct,
        List.mem_singleton]
    have hi : i ∈ [i] := List.mem_singleton_self i
    have hrest : i.restEndpoint = some e := (restEndpoint_of_only rfl).trans he
    obtain ⟨endpoint, hlisted, hshared⟩ :=
      (sortsHome_iff hi hrest).1 (hall p [i] i hi rfl ((hdefault a).2 rfl))
    obtain ⟨j, hj, -, hother⟩ := Instance.mem_endpointsIn.1 hlisted
    rw [List.mem_singleton.1 hj, hrest] at hother
    exact (Option.some.inj hother).trans ((hdefault endpoint).1 hshared)
  · subst heq
    exact hhome
  · rintro host port hne hplain hport rfl
    rw [RestUri.endpoint?_writeEndpoint hne hplain hport] at he
    exact (Option.some.inj he).symm

/-- `Default` has the address as reading the URI spells it, and the URI itself spells it otherwise. -/
theorem sortsHome_of_listed_of_other_spelling :
    let p := create ["[2001:db8::1]:80"] {} .empty
    let i : Instance := { endpoints := ["rest://[2001:DB8:0::1]:080"], dataCenter := some { zone := "z" } }
    RestUri.endpoint? "rest://[2001:DB8:0::1]:080" = some "[2001:db8::1]:80" ∧ p.SortsHome [i] "z" := by
  intro p i
  have he : RestUri.endpoint? ("rest://" ++ "[2001:DB8:0::1]:080") = some "[2001:db8::1]:80" := by
    decide +kernel
  exact ⟨he, (sortsHome_of_listed he).1 p [i] i (List.mem_singleton_self i) rfl (by decide)⟩

/-- `Default` has the very address under which an instance is listed, and the zone of the instance
is sorted away from it. -/
theorem listed_spelling_not_found :
    let p := create ["[2001:DB8::1]:80"] {} .empty
    let i : Instance := { endpoints := ["rest://[2001:DB8::1]:80"], dataCenter := some { zone := "z" } }
    RestUri.endpoint? ("rest://" ++ "[2001:DB8::1]:80") = some "[2001:db8::1]:80" ∧
      "[2001:DB8::1]:80" ∈ p.store.tiers.default ∧
      ¬p.SortsHome [i] i.zone ∧
      i.zone ∈ (p.classification [i]).sorted .diffAz ∧
      (p.resync [i]).2.store.tiers = ⟨["[2001:DB8::1]:80"], [], ["[2001:db8::1]:80"]⟩ := by
  intro p i
  have hsame : (p.classification [i]).sorted .sameAz = [] := by decide +kernel
  have hdiff : (p.classification [i]).sorted .diffAz = ["z"] := by decide +kernel
  refine ⟨by decide +kernel, by decide, ?_, ?_, by decide +kernel⟩
  · rintro ⟨-, hhome, -⟩
    rw [hsame] at hhome
    cases hhome
  · rw [hdiff]
    exact List.mem_singleton_self "z"

end ZonePool.Pool

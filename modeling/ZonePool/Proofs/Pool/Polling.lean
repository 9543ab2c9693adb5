-- SUMMARY: A directory that keeps listing the same instances moves no address.
import ZonePool.Proofs.Pool.Resync
import ZonePool.Proofs.Pool.Run

/-!
# Polling

A pool asks its directory again and again, and mostly the answer is the same. A
resync sorts zones by `Default` alone, which it leaves as it is, so one that
repeats the last successful one sorts them the same way: the tiers are settled.
Neither the verdicts that cycles commit meanwhile nor rounds that fail can
unsettle them.
-/

namespace ZonePool

/-! ## Settled tiers -/

namespace Tiers

/-- The tiers after a resync with some zones. -/
def sorted (t : Tiers) (zones : Zones) : Tiers :=
  let c := Classification.ofZones zones t.default
  { t with
    sameAz := c.sameAzMembers.getD t.sameAz
    diffAz := c.diffAzMembers.getD t.diffAz }

/-- A resync with these zones moves no address any more. -/
def Settled (zones : Zones) (t : Tiers) : Prop :=
  t.sorted zones = t

/-- A zone tier that has been given members is given the same ones again, and one that has been kept
is kept again. -/
theorem settled_sorted (t : Tiers) (zones : Zones) : (t.sorted zones).Settled zones := by
  have hagain : ∀ (given : Option (List String)) (before : List String),
      given.getD (given.getD before) = given.getD before := by
    rintro (_ | members) before <;> rfl
  simp only [Settled, sorted, hagain]

end Tiers

/-! ## Events that move no address -/

namespace Store

/-- An event that is no reset and no resync. -/
def Event.keepsTiers : Event → Bool
  | .reset _ | .resync _ => false
  | .commit _ | .start | .stop => true

theorem tiers_apply_of_keepsTiers (s : Store) {e : Event} (h : e.keepsTiers = true) :
    (s.apply e).tiers = s.tiers := by
  cases e with
  | reset addresses | resync zones => cases h
  | commit status => exact tiers_commit s status
  | start => rw [apply, start_eq]
  | stop => rw [apply, stop_eq]

theorem tiers_run_of_keepsTiers (s : Store) {events : List Event}
    (h : ∀ e ∈ events, e.keepsTiers = true) : (s.run events).tiers = s.tiers := by
  induction events generalizing s with
  | nil => rfl
  | cons e events ih =>
    obtain ⟨hfirst, hrest⟩ := List.forall_mem_cons.1 h
    rw [run_cons, ih (s.apply e) hrest, tiers_apply_of_keepsTiers s hfirst]

end Store

namespace Pool

/-! ## Resyncs and tiers -/

theorem tiers_resync_of_ok {p q : Pool} {instances : List Instance} {overwrites : List Overwrite}
    (h : p.resync instances = (.ok overwrites, q)) :
    q.store.tiers = p.store.tiers.sorted (.ofInstances instances) := by
  obtain ⟨-, rfl⟩ := resync_of_ok h
  rfl

/-- A list with which a resync has succeeded once serves every pool, and pools with the same
`Default` get the same warnings. -/
theorem resync_again {p q r : Pool} {instances : List Instance} {overwrites : List Overwrite}
    (h : p.resync instances = (.ok overwrites, q))
    (hdefault : r.store.tiers.default = p.store.tiers.default) :
    (r.resync instances).1 = .ok overwrites := by
  have hsome := fst_resync_eq_ok_iff.1 ⟨overwrites, congrArg Prod.fst h⟩
  obtain ⟨others, hok⟩ := (fst_resync_eq_ok_iff (p := r)).2 hsome
  obtain ⟨rfl, -⟩ := resync_of_ok h
  obtain ⟨rfl, -⟩ := resync_of_ok (Prod.ext hok rfl : r.resync instances = (.ok others, _))
  rw [hok, classification, classification, hdefault]

/-! ## Steps -/

theorem keepsTiers_commitEvents {c : Cycle} {e : Store.Event} (h : e ∈ commitEvents c) :
    e.keepsTiers = true := by
  rw [commitEvents] at h
  split at h
  · rw [List.mem_singleton.1 h]
    rfl
  · cases h

/-- An action that is no reset and no resync. -/
def Action.keepsTiers : Action → Bool
  | .reset _ | .resync _ => false
  | _ => true

theorem keepsTiers_events {p : Pool} {a : Action} (h : a.keepsTiers = true) :
    ∀ e ∈ p.events a, e.keepsTiers = true := by
  intro e he
  cases a with
  | reset addresses | resync instances => cases h
  | close | start | commit c =>
    rw [List.mem_singleton.1 he]
    rfl
  | endStart =>
    obtain ⟨c, -, hc⟩ := List.mem_flatMap.1 he
    exact keepsTiers_commitEvents hc
  | endTick =>
    rw [events] at he
    split at he
    · exact keepsTiers_commitEvents he
    · cases he
  | missResync | pick | join | probeFirst n | tick | probeLoop n => cases he

theorem tiers_act_of_keepsTiers {p : Pool} {a : Action} (h : a.keepsTiers = true) :
    (p.act a).store.tiers = p.store.tiers := by
  rw [store_act]
  exact p.store.tiers_run_of_keepsTiers (keepsTiers_events h)

/-- What may happen while a directory lists some instances: everything but a reset and a resync that
succeeds with other ones. -/
def Polls (p : Pool) (instances : List Instance) : Action → Prop
  | .reset _ => False
  | .resync others => others = instances ∨ ∃ failure, (p.resync others).1 = .error failure
  | _ => True

theorem tiers_act_of_polls {p : Pool} {instances : List Instance} {a : Action}
    (hsettled : p.store.tiers.Settled (.ofInstances instances)) (h : p.Polls instances a) :
    (p.act a).store.tiers = p.store.tiers := by
  cases a with
  | reset addresses => exact h.elim
  | resync others =>
    rcases h with rfl | ⟨failure, herror⟩
    · cases hresult : (p.resync others).1 with
      | error failure => rw [act, (resync_of_error hresult).2]; rfl
      | ok overwrites => exact (tiers_resync_of_ok (Prod.ext hresult rfl)).trans hsettled
    · rw [act, (resync_of_error herror).2]
      rfl
  | missResync | pick | close | join | start | probeFirst | endStart | tick | probeLoop | endTick
  | commit => exact tiers_act_of_keepsTiers rfl

/-! ## Runs -/

/-- Each action of a run comes while the directory lists these instances. -/
def PollsAlong (p : Pool) (instances : List Instance) : List Action → Prop
  | [] => True
  | a :: actions => p.Polls instances a ∧ (p.act a).PollsAlong instances actions

theorem tiers_run_of_polls {p : Pool} {instances : List Instance} {actions : List Action}
    (hsettled : p.store.tiers.Settled (.ofInstances instances))
    (h : p.PollsAlong instances actions) : (p.run actions).store.tiers = p.store.tiers := by
  induction actions generalizing p with
  | nil => rfl
  | cons a actions ih =>
    obtain ⟨hfirst, hrest⟩ := h
    have hstep := tiers_act_of_polls hsettled hfirst
    rw [run_cons, ih (hstep ▸ hsettled) hrest, hstep]

/-- What the first successful resync with some instances makes of the tiers stays through all that
comes before a reset or a resync with other instances, and each repetition on the way succeeds with
the warnings of the first one and moves nothing. -/
theorem tiers_of_polling {p q : Pool} {instances : List Instance} {overwrites : List Overwrite}
    (hfirst : p.resync instances = (.ok overwrites, q)) {actions : List Action}
    (hpolls : q.PollsAlong instances actions) :
    (q.run actions).store.tiers = q.store.tiers ∧
      ∃ r, (q.run actions).resync instances = (.ok overwrites, r) ∧
        r.store.tiers = q.store.tiers := by
  have hsorted := tiers_resync_of_ok hfirst
  have hsettled : q.store.tiers.Settled (.ofInstances instances) :=
    hsorted ▸ Tiers.settled_sorted p.store.tiers _
  have htiers := tiers_run_of_polls hsettled hpolls
  have hdefault : (q.run actions).store.tiers.default = p.store.tiers.default := by
    rw [htiers, hsorted]
    rfl
  have hagain : (q.run actions).resync instances =
      (.ok overwrites, ((q.run actions).resync instances).2) :=
    Prod.ext (resync_again hfirst hdefault) rfl
  refine ⟨htiers, _, hagain, ?_⟩
  rw [tiers_resync_of_ok hagain, htiers]
  exact hsettled

/-- Between two equal answers of the directory a cycle finds the only member of a zone tier down,
one round fails, another lists nothing, and the pool is closed. -/
theorem tiers_of_polling_of_rounds :
    let p := create ["10.0.0.1:80"] {} .empty
    let instances : List Instance := [
      { endpoints := ["rest://10.0.0.2:80"], dataCenter := some { zone := "az1" } }]
    let q := (p.resync instances).2
    let r := q.run [.start, .missResync, .commit ⟨[], [("10.0.0.2:80", .unavailable)]⟩, .pick,
      .resync [], .resync instances, .close, .tick]
    r.store.tiers = ⟨["10.0.0.1:80"], [], ["10.0.0.2:80"]⟩ ∧
      r.store.status.get? "10.0.0.2:80" = some .unavailable ∧ r.store.lifecycle = .stopped := by
  intro p instances q r
  have hfirst : p.resync instances = (.ok [], q) := by
    refine Prod.ext ?_ rfl
    decide +kernel
  have htiers : q.store.tiers = ⟨["10.0.0.1:80"], [], ["10.0.0.2:80"]⟩ := by decide +kernel
  have hpolls : q.PollsAlong instances [.start, .missResync,
      .commit ⟨[], [("10.0.0.2:80", .unavailable)]⟩, .pick, .resync [], .resync instances, .close,
      .tick] :=
    ⟨trivial, trivial, trivial, trivial, .inr ⟨.noUsableEndpoints, by rfl⟩, .inl rfl, trivial, trivial,
      trivial⟩
  exact ⟨(tiers_of_polling hfirst hpolls).1.trans htiers, by decide +kernel, by decide +kernel⟩

end Pool

end ZonePool

-- SUMMARY: Which keys the status of a pool has besides those of its members.
import Mathlib.Data.List.Induction
import ZonePool.Proofs.Pool.Run

/-!
# Keys of the status

A commit installs verdicts on members only and a reset forgets them all, but a
resync replaces zone tiers and leaves the status to the next cycle. Until then a
verdict may be on an endpoint that is no longer a member. Such an endpoint was a
member when the status was installed, and it is a resync that took it out.
-/

namespace ZonePool

namespace Store

theorem mem_members_of_kept {s : Store} {status : StatusMap} {endpoint : String}
    (h : endpoint ∈ (s.kept status).keys) : endpoint ∈ s.tiers.members := by
  obtain ⟨v, hget⟩ := KeyMap.mem_keys_iff.1 h
  exact (get?_kept.1 hget).1

/-! ## One event -/

/-- After an event the key of a status is a member, or the event left the status alone; and only a
resync changes the tiers then. -/
theorem mem_keys_apply {s : Store} {e : Event} {endpoint : String}
    (h : endpoint ∈ (s.apply e).status.keys) :
    endpoint ∈ (s.apply e).tiers.members ∨
      (s.apply e).status = s.status ∧
        ((∃ zones, e = .resync zones) ∨ (s.apply e).tiers = s.tiers) := by
  cases e with
  | reset addresses => exact absurd h List.not_mem_nil
  | resync zones => exact .inr ⟨rfl, .inl ⟨zones, rfl⟩⟩
  | commit status =>
    by_cases hstopped : s.lifecycle = .stopped
    · rw [apply, commit_of_stopped hstopped]
      exact .inr ⟨rfl, .inr rfl⟩
    · rw [apply, commit_of_not_stopped hstopped] at h ⊢
      exact .inl (mem_members_of_kept h)
  | start =>
    rw [apply, start_eq]
    exact .inr ⟨rfl, .inr rfl⟩
  | stop =>
    rw [apply, stop_eq]
    exact .inr ⟨rfl, .inr rfl⟩

end Store

namespace Pool

/-! ## One action -/

theorem commitEvents_cases (c : Cycle) :
    commitEvents c = [] ∨ commitEvents c = [.commit c.status] := by
  rw [commitEvents]
  split
  · exact .inr rfl
  · exact .inl rfl

/-- An action is one event of the store or none, and only a resync is a resync of the store. -/
theorem events_cases (p : Pool) (a : Action) :
    p.events a = [] ∨ ∃ e, p.events a = [e] ∧
      ∀ zones, e = .resync zones → ∃ instances, a = .resync instances := by
  -- The actions that end a cycle have nothing to commit, or commit.
  have hcommit : ∀ {c}, p.events a = commitEvents c → p.events a = [] ∨ ∃ e, p.events a = [e] ∧
      ∀ zones, e = .resync zones → ∃ instances, a = .resync instances := by
    intro c heq
    rw [heq]
    rcases commitEvents_cases c with hnone | hone
    · exact .inl hnone
    · exact .inr ⟨_, hone, nofun⟩
  cases a with
  | reset | close | start | commit => exact .inr ⟨_, rfl, nofun⟩
  | missResync | pick | join | probeFirst | tick | probeLoop => exact .inl rfl
  | resync instances =>
    rw [events]
    split
    · exact .inl rfl
    · exact .inr ⟨_, rfl, fun _ _ => ⟨instances, rfl⟩⟩
  | endStart =>
    cases hfirst : p.monitor.first with
    | none => exact .inl (by simp [events, hfirst])
    | some c => exact hcommit (c := c) (by simp [events, hfirst])
  | endTick =>
    cases hloop : p.monitor.loop with
    | probing c => exact hcommit (c := c) (by simp [events, hloop])
    | absent | waiting | ended => exact .inl (by simp [events, hloop])

theorem mem_keys_act {p : Pool} {a : Action} {endpoint : String}
    (h : endpoint ∈ (p.act a).store.status.keys) :
    endpoint ∈ (p.act a).store.tiers.members ∨
      (p.act a).store.status = p.store.status ∧
        ((∃ instances, a = .resync instances) ∨ (p.act a).store.tiers = p.store.tiers) := by
  rw [store_act] at h ⊢
  rcases events_cases p a with hnone | ⟨e, hone, hresync⟩
  · rw [hnone]
    exact .inr ⟨rfl, .inr rfl⟩
  · rw [hone] at h ⊢
    rcases Store.mem_keys_apply h with hmember | ⟨hsame, ⟨zones, rfl⟩ | htiers⟩
    · exact .inl hmember
    · exact .inr ⟨hsame, .inl (hresync zones rfl)⟩
    · exact .inr ⟨hsame, .inr htiers⟩

/-! ## Whole runs -/

/-- A resync of the run took the endpoint out of the tiers, and the status has been the same from
then on. -/
def Departed (p : Pool) (actions : List Action) (endpoint : String) : Prop :=
  ∃ before instances after, actions = before ++ .resync instances :: after ∧
    endpoint ∈ (p.run before).store.tiers.members ∧
    endpoint ∉ ((p.run before).act (.resync instances)).store.tiers.members ∧
    ∀ later, later <+: after →
      (((p.run before).act (.resync instances)).run later).store.status =
        (p.run before).store.status

theorem departed_concat {p : Pool} {actions : List Action} {a : Action} {endpoint : String}
    (h : p.Departed actions endpoint)
    (hsame : (p.run (actions ++ [a])).store.status = (p.run actions).store.status) :
    p.Departed (actions ++ [a]) endpoint := by
  obtain ⟨before, instances, after, rfl, hmember, hout, hstays⟩ := h
  refine ⟨before, instances, after ++ [a], by simp, hmember, hout, fun later hlater => ?_⟩
  rcases List.prefix_concat_iff.1 hlater with rfl | hprefix
  · have hafter := hstays after (List.prefix_refl after)
    simp only [run_append, run_cons, run_nil] at hsame hafter ⊢
    rw [hsame, hafter]
  · exact hstays later hprefix

theorem mem_keys_run {p : Pool} (hnew : ∀ endpoint ∈ p.store.status.keys,
    endpoint ∈ p.store.tiers.members) {actions : List Action} {endpoint : String}
    (h : endpoint ∈ (p.run actions).store.status.keys) :
    endpoint ∈ (p.run actions).store.tiers.members ∨ p.Departed actions endpoint := by
  induction actions using List.reverseRecOn with
  | nil => exact .inl (hnew endpoint h)
  | append_singleton actions a ih =>
    have hact : p.run (actions ++ [a]) = (p.run actions).act a := run_append p actions [a]
    by_cases hmember : endpoint ∈ (p.run (actions ++ [a])).store.tiers.members
    · exact .inl hmember
    right
    rw [hact] at h hmember
    obtain ⟨hsame, hcause⟩ := (mem_keys_act h).resolve_left hmember
    rw [hsame] at h
    rcases ih h with hbefore | hdeparted
    · -- It is this very action that takes the endpoint out, so it is a resync.
      rcases hcause with ⟨instances, rfl⟩ | htiers
      · refine ⟨actions, instances, [], rfl, hbefore, hmember, fun later hlater => ?_⟩
        rw [List.prefix_nil.1 hlater]
        exact hsame
      · rw [htiers] at hmember
        exact absurd hbefore hmember
    · exact departed_concat hdeparted (hact ▸ hsame)

/-! ## The law of keys -/

/-- In every state of every run a key of the status is a member, or a resync has taken it out since
the status was installed. The next reset forgets the key, and so does the next commit. -/
theorem status_keys_run (addresses : List String) (options : PoolOptions) (env : Environment)
    (actions : List Action) :
    let new := create addresses options env
    let p := new.run actions
    (∀ endpoint ∈ p.store.status.keys,
      (∃ tier, endpoint ∈ p.store.tiers.get tier) ∨ new.Departed actions endpoint) ∧
    (∀ addresses, (p.act (.reset addresses)).store.status.keys = []) ∧
    ∀ c q, p.commit c = (true, q) →
      ∀ endpoint ∈ q.store.status.keys, ∃ tier, endpoint ∈ q.store.tiers.get tier := by
  intro new p
  refine ⟨fun endpoint hkey => ?_, fun _ => rfl, fun c q hcommit endpoint hkey => ?_⟩
  · rw [← Tiers.mem_members]
    exact mem_keys_run (fun _ hnone => absurd hnone List.not_mem_nil) hkey
  · have hstore : q.store = (p.store.commit c.status).2 := by rw [← store_commit, hcommit]
    have hinstalled : (p.store.commit c.status).1 = true := by rw [← fst_commit, hcommit]
    have hrunning : p.store.lifecycle ≠ .stopped := by
      intro hstopped
      rw [Store.commit_of_stopped hstopped] at hinstalled
      cases hinstalled
    rw [hstore, Store.commit_of_not_stopped hrunning] at hkey ⊢
    exact Tiers.mem_members.1 (Store.mem_members_of_kept hkey)

/-- A cycle that began before a resync installs no verdict on what the resync took out. -/
theorem status_keys_run_of_late_commit :
    let p := (create ["10.0.0.1:80"] { diffAz := ["10.0.0.2:80"] } .empty).run
      [.resync [{ endpoints := ["rest://10.0.0.3:80"] }]]
    let c : Cycle := ⟨[], [("10.0.0.1:80", .available), ("10.0.0.2:80", .available)]⟩
    (p.commit c).1 = true ∧ ∀ endpoint ∈ (p.commit c).2.store.status.keys,
      ∃ tier, endpoint ∈ (p.commit c).2.store.tiers.get tier := by
  intro p c
  have hinstalled : (p.commit c).1 = true := by decide +kernel
  have hcommit : p.commit c = (true, (p.commit c).2) := Prod.ext hinstalled rfl
  obtain ⟨-, -, hkeys⟩ := status_keys_run ["10.0.0.1:80"] { diffAz := ["10.0.0.2:80"] } .empty
    [.resync [{ endpoints := ["rest://10.0.0.3:80"] }]]
  exact ⟨hinstalled, hkeys c _ hcommit⟩

/-- A verdict of the first cycle outlives the membership of its endpoint. -/
theorem status_key_departs :
    let n : Network := {}
    let p := (create ["10.0.0.1:80"] { diffAz := ["10.0.0.2:80"] } .empty).run
      [.start, .probeFirst n, .probeFirst n, .endStart,
        .resync [{ endpoints := ["rest://10.0.0.3:80"] }]]
    "10.0.0.2:80" ∈ p.store.status.keys ∧ ¬∃ tier, "10.0.0.2:80" ∈ p.store.tiers.get tier := by
  intro n p
  have hkeys : p.store.status.keys = ["10.0.0.1:80", "10.0.0.2:80"] := by decide +kernel
  have htiers : p.store.tiers = ⟨["10.0.0.1:80"], [], ["10.0.0.3:80"]⟩ := by decide +kernel
  rw [← Tiers.mem_members, hkeys, htiers]
  exact ⟨by decide, by decide⟩

end Pool

end ZonePool

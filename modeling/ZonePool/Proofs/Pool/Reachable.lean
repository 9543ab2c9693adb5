-- SUMMARY: Whole operations of pools and sessions are runs of atomic actions.
import ZonePool.Pool.Session
import ZonePool.Proofs.Pool.Run

/-!
# Operations as runs

A pool that is launched, started or driven by the commands of a session goes
through whole cycles at once. Each of these operations is a run of atomic
actions, so what holds in every reachable state holds before and after each of
them, and in particular in every state that a session shows.
-/

namespace ZonePool

/-! ## Cycles -/

/-- The second cycle is the first one after some more probes, each in a network of its own. -/
inductive Cycle.Advances (p : Probe) : Cycle → Cycle → Prop where
  | refl (c : Cycle) : Advances p c c
  | probe {c c' : Cycle} (n : Network) : Advances p (c.probeNext p n).1 c' → Advances p c c'

namespace Cycle

theorem advances_run (p : Probe) (c : Cycle) (n : Network) : Advances p c (c.run p n).1 := by
  obtain ⟨pending, verdicts⟩ := c
  induction pending generalizing verdicts n with
  | nil =>
    simp only [run, probeAll, List.append_nil]
    exact .refl _
  | cons endpoint rest ih =>
    have hrest := ih (p.verdict endpoint n).2 (verdicts ++ [(endpoint, (p.verdict endpoint n).1)])
    simp only [run, List.append_assoc, List.cons_append, List.nil_append] at hrest
    refine .probe n ?_
    simpa only [run, probeAll, probeNext] using hrest

theorem advances_hold (p : Probe) (slots : Nat) (c : Cycle) (n : Network) :
    Advances p c (c.hold p slots n).2.1 := by
  obtain ⟨pending, verdicts⟩ := c
  induction pending generalizing slots verdicts n with
  | nil =>
    simp only [hold, runUntilHeld, List.append_nil]
    exact .refl _
  | cons endpoint rest ih =>
    have hnext : ∀ slots v n', p.verdict endpoint n = (v, n') →
        Advances p ⟨endpoint :: rest, verdicts⟩
          (hold p slots ⟨rest, verdicts ++ [(endpoint, v)]⟩ n').2.1 := by
      intro slots v n' hv
      refine .probe n ?_
      simpa only [probeNext, hv] using ih slots n' (verdicts ++ [(endpoint, v)])
    simp only [hold, List.append_assoc, List.cons_append, List.nil_append] at hnext
    simp only [hold, runUntilHeld]
    split
    · next hcheck => exact hnext slots _ _ (by simp [Probe.verdict, hcheck])
    · next failure n' hcheck =>
      have hv : p.verdict endpoint n = (.unavailable, n') := by simp [Probe.verdict, hcheck]
      split
      · split
        · refine .probe n ?_
          simp only [probeNext, hv]
          exact .refl _
        · exact hnext (slots - 1) _ _ hv
      · exact hnext slots _ _ hv

end Cycle

namespace Pool

/-! ## Cycles of the monitor -/

/-- A pool that keeps a cycle in some place and probes it there by an action can take it to any
later stage. -/
theorem reaches_of_advances {probe : Probe} (place : Cycle → Pool) (probing : Network → Action)
    (hstep : ∀ c n, (place c).act (probing n) = place (c.probeNext probe n).1) {c c' : Cycle}
    (h : Cycle.Advances probe c c') : Reaches (place c) (place c') := by
  induction h with
  | refl c => exact .refl (place c)
  | @probe c c' n _ ih =>
    have hprobe : Reaches (place c) (place (c.probeNext probe n).1) :=
      hstep c n ▸ reaches_act (place c) (probing n)
    exact hprobe.trans ih

theorem reaches_first {p : Pool} {c c' : Cycle} (hfirst : p.monitor.first = some c)
    (h : Cycle.Advances p.monitor.probe c c') :
    Reaches p (p.withMonitor { p.monitor with first := some c' }) := by
  have hplace : p.withMonitor { p.monitor with first := some c } = p := by
    rw [← hfirst]
    rfl
  have hreaches := reaches_of_advances
    (fun c => p.withMonitor { p.monitor with first := some c }) .probeFirst (fun _ _ => rfl) h
  rwa [hplace] at hreaches

theorem reaches_loop {p : Pool} {c c' : Cycle} (hloop : p.monitor.loop = .probing c)
    (h : Cycle.Advances p.monitor.probe c c') :
    Reaches p (p.withMonitor { p.monitor with loop := .probing c' }) := by
  have hplace : p.withMonitor { p.monitor with loop := .probing c } = p := by
    rw [← hloop]
    rfl
  have hreaches := reaches_of_advances
    (fun c => p.withMonitor { p.monitor with loop := .probing c }) .probeLoop (fun _ _ => rfl) h
  rwa [hplace] at hreaches

theorem reaches_holdStart (p : Pool) (n : Network) :
    Reaches p (p.withMonitor (p.monitor.holdStart n).2.1) := by
  have hbegin := reaches_act p .start
  simp only [act] at hbegin
  unfold Monitor.holdStart
  split
  · next m hm => rwa [hm] at hbegin
  · next m hm =>
    rw [hm] at hbegin
    split
    · exact hbegin
    · next c hfirst => exact hbegin.trans (reaches_first hfirst (Cycle.advances_hold _ _ _ _))

theorem reaches_finishStart (p : Pool) (n : Network) :
    Reaches p (p.withMonitor (p.monitor.finishStart n).2.1) := by
  unfold Monitor.finishStart
  split
  · exact .refl p
  · next c hfirst =>
    exact (reaches_first hfirst (Cycle.advances_run _ _ n)).trans (reaches_act _ .endStart)

theorem reaches_holdTick (p : Pool) (n : Network) :
    Reaches p (p.withMonitor (p.monitor.holdTick n).2.1) := by
  have hbegin := reaches_act p .tick
  simp only [act] at hbegin
  unfold Monitor.holdTick
  split
  · next m hm => rwa [hm] at hbegin
  · next m hm =>
    rw [hm] at hbegin
    split
    · next c hloop => exact hbegin.trans (reaches_loop hloop (Cycle.advances_hold _ _ _ _))
    · exact hbegin

theorem reaches_finishTick (p : Pool) (n : Network) :
    Reaches p (p.withMonitor (p.monitor.finishTick n).2.1) := by
  unfold Monitor.finishTick
  split
  · next c hloop =>
    exact (reaches_loop hloop (Cycle.advances_run _ _ n)).trans (reaches_act _ .endTick)
  · exact .refl p

/-! ## Operations of a pool -/

theorem reaches_start (p : Pool) (n : Network) : Reaches p (p.start n).2.1 := by
  have hhold := reaches_holdStart p n
  unfold start Monitor.start
  split
  next started m n' hstart =>
  split at hstart
  · next hm =>
    cases hstart
    rwa [hm] at hhold
  · next m' n'' hm =>
    cases hstart
    rw [hm] at hhold
    exact hhold.trans (reaches_finishStart _ n'')

theorem reachable_launch (addresses : List String) (options : PoolOptions) (env : Environment)
    (n : Network) : (launch addresses options env n).1.Reachable :=
  ⟨addresses, options, env, reaches_start _ n⟩

theorem reaches_shutdown (p : Pool) : Reaches p p.shutdown :=
  (reaches_act p .close).trans (reaches_act _ .join)

theorem reaches_picks (p : Pool) (count : Nat) : Reaches p (p.picks count).2 := by
  induction count generalizing p with
  | zero => exact .refl p
  | succ count ih => exact (reaches_act p .pick).trans (ih _)

theorem reaches_resyncFrom (p : Pool) (d : Directory) (n : Network) :
    Reaches p (p.resyncFrom d n).2.1 := by
  unfold resyncFrom
  split
  · exact reaches_act p .missResync
  · next instances _ _ => exact reaches_act p (.resync instances)

theorem reaches_serve (p : Pool) (target : String) (recording : Bool) :
    Reaches p (Admin.serve target recording p).2 := by
  unfold Admin.serve Admin.route
  split
  · exact .refl p
  split
  · exact .refl p
  split
  · exact reaches_act p .pick
  split
  · exact .refl p
  split
  · exact .refl p
  · exact .refl p

end Pool

/-! ## Sessions -/

namespace Session

open Pool

theorem reaches_ask {s s' : Session} {method target : String} {recording : Bool} {page : Page}
    (h : s.ask method target recording = some (page, s')) : Reaches s.pool s'.pool := by
  unfold ask at h
  split at h
  · cases h
    exact reaches_serve s.pool target recording
  · cases h

mutual

theorem reaches_run {s s' : Session} {answer : Answer} (c : Command)
    (h : s.run c = some (answer, s')) : Reaches s.pool s'.pool := by
  match c with
  | .pick count =>
    rw [run] at h
    obtain ⟨-, rfl⟩ := Prod.mk.inj (Option.some.inj h)
    exact reaches_picks s.pool count
  | .reset addresses =>
    rw [run] at h
    obtain ⟨-, rfl⟩ := Prod.mk.inj (Option.some.inj h)
    exact reaches_act s.pool (.reset addresses)
  | .resync instances =>
    rw [run] at h
    obtain ⟨-, rfl⟩ := Prod.mk.inj (Option.some.inj h)
    exact reaches_act s.pool (.resync instances)
  | .resyncBody body =>
    rw [run] at h
    split at h
    · obtain ⟨-, rfl⟩ := Prod.mk.inj (Option.some.inj h)
      exact .refl s.pool
    · next instances _ =>
      obtain ⟨-, rfl⟩ := Prod.mk.inj (Option.some.inj h)
      exact reaches_act s.pool (.resync instances)
  | .directory url =>
    have hround := reaches_resyncFrom s.pool (.ofUrl url) s.network
    rw [run] at h
    generalize s.pool.resyncFrom (.ofUrl url) s.network = round at h hround
    cases h
    exact hround
  | .close =>
    rw [run] at h
    obtain ⟨-, rfl⟩ := Prod.mk.inj (Option.some.inj h)
    exact reaches_act s.pool .close
  | .shutdown =>
    rw [run] at h
    obtain ⟨-, rfl⟩ := Prod.mk.inj (Option.some.inj h)
    exact reaches_shutdown s.pool
  | .start =>
    have hstart := reaches_start s.pool s.network
    rw [run] at h
    generalize s.pool.start s.network = started at h hstart
    cases h
    exact hstart
  | .statusOf endpoint | .checkInterval | .peers peers =>
    rw [run] at h
    obtain ⟨-, rfl⟩ := Prod.mk.inj (Option.some.inj h)
    exact .refl s.pool
  | .get method target =>
    rw [run] at h
    obtain ⟨⟨page, s''⟩, hask, heq⟩ := Option.map_eq_some_iff.1 h
    obtain ⟨-, rfl⟩ := Prod.mk.inj heq
    exact reaches_ask hask
  | .cycle during =>
    have hhold := reaches_holdTick s.pool s.network
    rw [run] at h
    split at h
    · next hm =>
      obtain ⟨-, rfl⟩ := Prod.mk.inj (Option.some.inj h)
      rwa [hm] at hhold
    · next held monitor network hm =>
      rw [hm] at hhold
      obtain ⟨⟨answers, s₁⟩, hbetween, heq⟩ := Option.map_eq_some_iff.1 h
      have hduring : Reaches (s.withMonitor monitor network).pool s₁.pool := by
        split at hbetween
        · obtain ⟨⟨given, s₂⟩, hrun, hgiven⟩ := Option.map_eq_some_iff.1 hbetween
          cases hgiven
          exact reaches_runAll during hrun
        · cases hbetween
          exact .refl _
      cases heq
      exact (hhold.trans hduring).trans (reaches_finishTick s₁.pool s₁.network)

theorem reaches_runAll {s s' : Session} {answers : List Answer} (cs : List Command)
    (h : s.runAll cs = some (answers, s')) : Reaches s.pool s'.pool := by
  match cs with
  | [] =>
    cases h
    exact .refl s.pool
  | c :: cs =>
    unfold runAll at h
    split at h
    · cases h
    · next hrun =>
      split at h
      · cases h
      · next hrest =>
        cases h
        exact (reaches_run c hrun).trans (reaches_runAll cs hrest)

end

/-- Every pool that a session shows is reachable. -/
theorem reachable_runAll {addresses : List String} {options : PoolOptions} {env : Environment}
    {n : Network} {cs : List Command} {answers : List Answer} {s : Session}
    (h : (launch addresses options env n).runAll cs = some (answers, s)) : s.pool.Reachable :=
  (reachable_launch addresses options env n).reaches (reaches_runAll cs h)

end Session

end ZonePool

-- SUMMARY: Where peers answer independently, the order of the probes does not matter to a cycle.
import ZonePool.Monitor
import ZonePool.Proofs.Cycle.Overlap
import ZonePool.Proofs.KeyMap

/-!
# Cycles in any order

In a network whose peers answer independently of earlier attempts, a probe comes
to the same whenever its connections are made. So every way of going through a
cycle collects the same results and makes the same attempts, in some order, and
the commit does not look at the order.
-/

namespace ZonePool

open Net (SocketAddress)
open Probe (Stage)

/-! ## What is owed -/

namespace Overlap

variable {outlook : Outlook} {b : Network}

/-- The results of the checks, each as it is in a network with an empty record. -/
def outcomes (hb : b.Answers outlook) :
    Ledger (·.Answers outlook) (String × Except Failure ProbeMethod) where
  kept results _ := results
  due endpoint stage := [(endpoint, (stage.finish endpoint b.forget).1)]
  stays h := (Stage.next_forget h hb _).2.2.2
  connect h := by rw [(Stage.next_forget h hb _).1]
  finish := rfl

/-- The attempts to connect. -/
def attempts (hb : b.Answers outlook) : Ledger (·.Answers outlook) SocketAddress where
  kept _ n := n.dials
  due endpoint stage := (stage.finish endpoint b.forget).2.dials
  stays h := (Stage.next_forget h hb _).2.2.2
  connect h := (Stage.next_forget h hb _).2.1
  finish := (List.append_nil _).symm

/-- The requests served. -/
def served (hb : b.Answers outlook) : Ledger (·.Answers outlook) Hit where
  kept _ n := n.hits
  due endpoint stage := (stage.finish endpoint b.forget).2.hits
  stays h := (Stage.next_forget h hb _).2.2.2
  connect h := (Stage.next_forget h hb _).2.2.1
  finish := (List.append_nil _).symm

variable {p : Probe} {slots slots' : Nat} {start o o' : Overlap}

/-- Two ways of going through a cycle come to the same, up to the order. -/
theorem perm_of_over (hstart : start.network.Independent) (h : Runs p slots start o) (hover : o.Over)
    (h' : Runs p slots' start o') (hover' : o'.Over) :
    o.results.Perm o'.results ∧ o.network.dials.Perm o'.network.dials ∧
      o.network.hits.Perm o'.network.hits := by
  have hsame : ∀ {β : Type} (L : Ledger (·.Answers start.network.outlook) β),
      (L.kept o.results o.network).Perm (L.kept o'.results o'.network) := fun L =>
    (L.perm_kept h hstart hover).trans (L.perm_kept h' hstart hover').symm
  exact ⟨hsame (outcomes hstart), hsame (attempts hstart), hsame (served hstart)⟩

end Overlap

/-! ## Commits -/

namespace Cycle

variable {c c' : Cycle}

theorem status_of_perm (h : c.verdicts.Perm c'.verdicts) (hnodup : (c.verdicts.map (·.1)).Nodup) :
    c.status = c'.status :=
  KeyMap.ofList_of_perm h hnodup

/-- A commit does not look at the order of the verdicts. -/
theorem commit_of_perm (h : c.verdicts.Perm c'.verdicts) (hnodup : (c.verdicts.map (·.1)).Nodup)
    (s : Store) (m : Metrics) : c.commit s m = c'.commit s m := by
  have hcount : m.countCycle (c.verdicts.map (·.2)) = m.countCycle (c'.verdicts.map (·.2)) := by
    simp only [Metrics.countCycle, (h.map (·.2)).countP_eq]
  have havailable : c.available = c'.available := h.countP_eq _
  rw [commit, commit, status_of_perm h hnodup, hcount, havailable]

end Cycle

namespace Monitor

/-- Where the peers answer independently, a cycle of the monitor whose probes overlap comes to its
end and commits what the sequential cycle commits, after the same attempts in some order. -/
theorem runCycle_any_order (m : Monitor) (n : Network) (h : n.Independent) :
    let start := Overlap.begin m.store n
    let slots := max m.concurrency 1
    let sequential := m.runCycle n
    (∃ o, Overlap.Runs m.probe 1 start o ∧ o.Over ∧
      m.commit o.cycle = (sequential.1, sequential.2.1) ∧ o.network = sequential.2.2) ∧
    (∀ o, Overlap.Runs m.probe slots start o → ¬o.Over → ∃ o', Overlap.Step m.probe slots o o') ∧
    (∀ way : Nat → Overlap, way 0 = start → ∃ i, ¬Overlap.Step m.probe slots (way i) (way (i + 1))) ∧
    (∀ o, Overlap.Runs m.probe slots start o → o.Over →
      o.cycle.status = ((Cycle.begin m.store).run m.probe n).1.status ∧
      m.commit o.cycle = (sequential.1, sequential.2.1) ∧
      o.network.dials.Perm sequential.2.2.dials ∧ o.network.hits.Perm sequential.2.2.hits) := by
  dsimp only
  obtain ⟨sequential, hruns, hover, hcycle, hnetwork⟩ :=
    Overlap.exists_runs_run m.probe (Nat.le_refl 1) m.store n
  have hslots : 1 ≤ max m.concurrency 1 := Nat.le_max_right _ _
  have hrunCycle : m.runCycle n =
      ((m.commit sequential.cycle).1, (m.commit sequential.cycle).2, sequential.network) := by
    rw [runCycle, hcycle, hnetwork]
  rw [hrunCycle, ← hcycle]
  refine ⟨⟨sequential, hruns, hover, rfl, rfl⟩, fun o _ hgoing => Overlap.exists_step hslots hgoing,
    fun way _ => Overlap.exists_not_step _ _ way, fun o ho hoOver => ?_⟩
  obtain ⟨hresults, hdials, hhits⟩ := Overlap.perm_of_over h ho hoOver hruns hover
  have hverdicts : o.cycle.verdicts.Perm sequential.cycle.verdicts := hresults.map _
  have hnodup : (o.cycle.verdicts.map (·.1)).Nodup := Overlap.nodup_verdicts ho hoOver
  refine ⟨Cycle.status_of_perm hverdicts hnodup, ?_, hdials, hhits⟩
  rw [commit, commit, Cycle.commit_of_perm hverdicts hnodup]

/-- Of two probes that begin together, the second one ends first. -/
theorem runCycle_any_order_of_silent_peer :
    let a : SocketAddress := .v4 ⟨10, 0, 0, 1⟩ 80
    let b : SocketAddress := .v4 ⟨10, 0, 0, 2⟩ 80
    let n : Network := { peers := [(a, .silent), (b, .accepting none none)] }
    let m : Monitor := {
      store := .create ["10.0.0.1:80", "10.0.0.2:80"] []
      probe := .create none
      interval := .ofSecs 30
      concurrency := 2 }
    let o : Overlap := {
      waiting := []
      results := [("10.0.0.2:80", .ok .tcp), ("10.0.0.1:80", .error (.probeTimeout (.ofSecs 1)))]
      network := { n with dials := [b, a] } }
    n.Independent ∧ Overlap.Runs m.probe 2 (.begin m.store n) o ∧
      m.commit o.cycle = ((m.runCycle n).1, (m.runCycle n).2.1) ∧
      [b, a].Perm (m.runCycle n).2.2.dials := by
  intro a b n m o
  have hindependent : n.Independent := by
    refine Network.Unlimited.independent fun p hp limit routes => ?_
    simp only [n, List.mem_cons, List.not_mem_nil, or_false] at hp
    rcases hp with rfl | rfl <;> simp
  have ha : SocketAddress.ofText? "10.0.0.1:80" = some a := by decide +kernel
  have hb : SocketAddress.ofText? "10.0.0.2:80" = some b := by decide +kernel
  have hruns : Overlap.Runs m.probe 2 (.begin m.store n) o := by
    have hsnapshot : m.store.snapshot = ["10.0.0.1:80", "10.0.0.2:80"] := by decide +kernel
    have hfirst : Overlap.Step m.probe 2
        ⟨[], [("10.0.0.1:80", .connecting .tcp), ("10.0.0.2:80", .connecting .tcp)], [], n⟩
        ⟨[], [("10.0.0.1:80", .connecting .tcp), ("10.0.0.2:80", .done (.ok .tcp))], [],
          { n with dials := [b] }⟩ := by
      have hnext : (Stage.connecting .tcp).next "10.0.0.2:80" n =
          (.done (.ok .tcp), { n with dials := [b] }) := by
        rw [Stage.next, Probe.connect_of_some hb]
        rfl
      exact .connect_of_eq [_] [] nofun hnext
    have hsecond : Overlap.Step m.probe 2
        ⟨[], [("10.0.0.1:80", .connecting .tcp)], [("10.0.0.2:80", .ok .tcp)], { n with dials := [b] }⟩
        ⟨[], [("10.0.0.1:80", .done (.error (.probeTimeout (.ofSecs 1))))], [("10.0.0.2:80", .ok .tcp)],
          { n with dials := [b, a] }⟩ := by
      have hnext : (Stage.connecting .tcp).next "10.0.0.1:80" { n with dials := [b] } =
          (.done (.error (.probeTimeout (.ofSecs 1))), { n with dials := [b, a] }) := by
        rw [Stage.next, Probe.connect_of_some ha]
        rfl
      exact .connect_of_eq [] [] nofun hnext
    rw [Overlap.begin, hsnapshot]
    refine .head (.begin [] _ (by decide)) (.head (.begin [] [] (by decide)) ?_)
    exact .head hfirst (.head (.finish [_] []) (.head hsecond (.single (.finish [] []))))
  obtain ⟨-, hcommit, hdials, -⟩ :=
    (runCycle_any_order m n hindependent).2.2.2 o hruns ⟨rfl, rfl⟩
  exact ⟨hindependent, hruns, hcommit, hdials⟩

end Monitor

end ZonePool

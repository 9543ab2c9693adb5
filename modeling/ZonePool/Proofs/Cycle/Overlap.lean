-- SUMMARY: A probe cycle whose probes overlap, in any order.
import Mathlib.Algebra.GroupWithZero.Nat
import Mathlib.Data.List.Basic
import Mathlib.Logic.Relation
import ZonePool.Cycle
import ZonePool.Proofs.Probe.Stage

/-!
# Overlapping probes

A cycle may have several probes under way at once, up to a number of slots. Any
probe may begin next, any probe under way may make the next connection, and
those that are done end in any order. Nothing gets lost in between: what the
endpoints of the snapshot owe at first is what the cycle has collected at its
end. No cycle gets stuck or goes on forever, and probing one endpoint after
another is one of the ways it may go.
-/

namespace ZonePool

open Probe (Stage)

theorem Cycle.probeAll_cons (p : Probe) (endpoint : String) (rest : List String) (n : Network) :
    probeAll p (endpoint :: rest) n =
      ((endpoint, Probe.verdictOf (p.check endpoint n).1) :: (probeAll p rest (p.check endpoint n).2).1,
        (probeAll p rest (p.check endpoint n).2).2) := by
  rw [probeAll, Probe.verdict_eq]

/-- A cycle with probes under way: the endpoints whose probes have not begun, the checks under way and
the results so far. -/
structure Overlap where
  waiting : List String
  flying : List (String × Stage) := []
  results : List (String × Except Failure ProbeMethod) := []
  network : Network

namespace Overlap

variable {p : Probe} {slots : Nat} {o o' : Overlap}

/-! ## Steps -/

/-- A cycle begins on the current members. -/
def begin (s : Store) (n : Network) : Overlap where
  waiting := s.snapshot
  network := n

inductive Step (p : Probe) (slots : Nat) : Overlap → Overlap → Prop where
  /-- A probe begins when there is a free slot. -/
  | begin (before after : List String) {endpoint : String} {flying : List (String × Stage)}
    {results : List (String × Except Failure ProbeMethod)} {n : Network} (hfree : flying.length < slots) :
    Step p slots ⟨before ++ endpoint :: after, flying, results, n⟩
      ⟨before ++ after, flying ++ [(endpoint, .begin p endpoint)], results, n⟩
  /-- A probe makes its next connection. -/
  | connect (before after : List (String × Stage)) {waiting : List String} {endpoint : String}
    {stage : Stage} {results : List (String × Except Failure ProbeMethod)} {n : Network}
    (hwork : stage.work ≠ 0) :
    Step p slots ⟨waiting, before ++ (endpoint, stage) :: after, results, n⟩
      ⟨waiting, before ++ (endpoint, (stage.next endpoint n).1) :: after, results,
        (stage.next endpoint n).2⟩
  /-- A probe ends. -/
  | finish (before after : List (String × Stage)) {waiting : List String} {endpoint : String}
    {result : Except Failure ProbeMethod} {results : List (String × Except Failure ProbeMethod)}
    {n : Network} :
    Step p slots ⟨waiting, before ++ (endpoint, .done result) :: after, results, n⟩
      ⟨waiting, before ++ after, results ++ [(endpoint, result)], n⟩

theorem Step.connect_of_eq (before after : List (String × Stage)) {waiting : List String}
    {endpoint : String} {stage stage' : Stage} {results : List (String × Except Failure ProbeMethod)}
    {n n' : Network} (hwork : stage.work ≠ 0) (h : stage.next endpoint n = (stage', n')) :
    Step p slots ⟨waiting, before ++ (endpoint, stage) :: after, results, n⟩
      ⟨waiting, before ++ (endpoint, stage') :: after, results, n'⟩ := by
  have hstep : Step p slots ⟨waiting, before ++ (endpoint, stage) :: after, results, n⟩ _ :=
    .connect before after hwork
  rwa [h] at hstep

/-- Several steps one after another. -/
abbrev Runs (p : Probe) (slots : Nat) : Overlap → Overlap → Prop :=
  Relation.ReflTransGen (Step p slots)

/-- Every probe has ended. -/
def Over (o : Overlap) : Prop :=
  o.waiting = [] ∧ o.flying = []

/-- The verdicts so far, and the endpoints still without one. -/
def cycle (o : Overlap) : Cycle where
  pending := o.flying.map (·.1) ++ o.waiting
  verdicts := o.results.map fun r => (r.1, Probe.verdictOf r.2)

/-! ## Progress -/

/-- A cycle that is not over is not stuck. -/
theorem exists_step (hslots : 1 ≤ slots) (h : ¬o.Over) : ∃ o', Step p slots o o' := by
  obtain ⟨waiting, flying, results, n⟩ := o
  cases flying with
  | nil =>
    cases waiting with
    | nil => exact absurd ⟨rfl, rfl⟩ h
    | cons endpoint waiting => exact ⟨_, .begin [] waiting hslots⟩
  | cons probe flying =>
    obtain ⟨endpoint, stage⟩ := probe
    cases stage with
    | asking budget url => exact ⟨_, .connect [] flying nofun⟩
    | connecting method => exact ⟨_, .connect [] flying nofun⟩
    | done result => exact ⟨_, .finish [] flying⟩

/-- How many steps are left at most. -/
def work (p : Probe) (o : Overlap) : Nat :=
  (o.waiting.map fun endpoint => (Stage.begin p endpoint).work + 2).sum +
    (o.flying.map fun probe => probe.2.work + 1).sum

theorem work_step (h : Step p slots o o') : o'.work p < o.work p := by
  cases h with
  | begin _ _ hfree =>
    simp only [work, List.map_append, List.map_cons, List.map_nil, List.sum_append, List.sum_cons,
      List.sum_nil]
    omega
  | @connect _ _ _ endpoint _ _ n hwork =>
    have hnext := Stage.work_next endpoint hwork n
    simp only [work, List.map_append, List.map_cons, List.sum_append, List.sum_cons]
    omega
  | finish =>
    simp only [work, List.map_append, List.map_cons, List.sum_append, List.sum_cons]
    omega

/-- No cycle goes on forever. -/
theorem exists_not_step (p : Probe) (slots : Nat) (f : Nat → Overlap) :
    ∃ i, ¬Step p slots (f i) (f (i + 1)) := by
  by_contra hforever
  simp only [not_exists, not_not] at hforever
  have hwork : ∀ i, (f i).work p + i ≤ (f 0).work p := by
    intro i
    induction i with
    | zero => exact Nat.le_refl _
    | succ i ih =>
      have := work_step (hforever i)
      omega
  have := hwork ((f 0).work p + 1)
  omega

/-! ## One after another -/

/-- The only probe under way is carried out to its end. -/
theorem runs_finish (waiting : List String) (endpoint : String) (stage : Stage)
    (results : List (String × Except Failure ProbeMethod)) (n : Network) :
    Runs p slots ⟨waiting, [(endpoint, stage)], results, n⟩
      ⟨waiting, [], results ++ [(endpoint, (stage.finish endpoint n).1)], (stage.finish endpoint n).2⟩ := by
  induction hw : stage.work using Nat.strongRecOn generalizing stage n with
  | ind w ih =>
    by_cases hwork : stage.work = 0
    · obtain ⟨result, rfl⟩ : ∃ result, stage = .done result := by
        cases stage with
        | done result => exact ⟨result, rfl⟩
        | asking | connecting => cases hwork
      exact .single (.finish [] [])
    · have hrest := ih _ (hw ▸ Stage.work_next endpoint hwork n)
        (stage.next endpoint n).1 (stage.next endpoint n).2 rfl
      rw [Stage.finish_next] at hrest
      exact .head (.connect [] [] hwork) hrest

/-- Probing one endpoint after another is one of the ways a cycle may go. -/
theorem runs_probeAll (hslots : 1 ≤ slots) (waiting : List String)
    (results : List (String × Except Failure ProbeMethod)) (n : Network) :
    ∃ later, Runs p slots ⟨waiting, [], results, n⟩
        ⟨[], [], results ++ later, (Cycle.probeAll p waiting n).2⟩ ∧
      later.map (fun r => (r.1, Probe.verdictOf r.2)) = (Cycle.probeAll p waiting n).1 := by
  induction waiting generalizing results n with
  | nil => exact ⟨[], by rw [List.append_nil]; exact .refl, rfl⟩
  | cons endpoint waiting ih =>
    obtain ⟨later, hruns, hlater⟩ :=
      ih (results ++ [(endpoint, (p.check endpoint n).1)]) (p.check endpoint n).2
    have hbegin : Step p slots ⟨endpoint :: waiting, [], results, n⟩
        ⟨waiting, [(endpoint, .begin p endpoint)], results, n⟩ :=
      .begin [] waiting hslots
    have hfinish : Runs p slots ⟨waiting, [(endpoint, .begin p endpoint)], results, n⟩ _ :=
      runs_finish waiting endpoint (.begin p endpoint) results n
    rw [Stage.finish_begin] at hfinish
    rw [List.append_assoc] at hruns
    refine ⟨(endpoint, (p.check endpoint n).1) :: later, ?_, ?_⟩
    · rw [Cycle.probeAll_cons]
      exact .head hbegin (hfinish.trans hruns)
    · rw [Cycle.probeAll_cons, List.map_cons, hlater]

/-- A whole cycle of the monitor is one of the ways, with any number of slots. -/
theorem exists_runs_run (p : Probe) (hslots : 1 ≤ slots) (s : Store) (n : Network) :
    ∃ o, Runs p slots (.begin s n) o ∧ o.Over ∧ o.cycle = ((Cycle.begin s).run p n).1 ∧
      o.network = ((Cycle.begin s).run p n).2 := by
  obtain ⟨results, hruns, hresults⟩ := runs_probeAll (p := p) hslots s.snapshot [] n
  refine ⟨_, hruns, ⟨rfl, rfl⟩, ?_, rfl⟩
  simp [cycle, Cycle.run, Cycle.begin, hresults]

/-! ## What a cycle owes -/

/-- Something that each probe owes the cycle: what is kept of it so far, and what is still due from a
check under way. In networks with `P`, a step keeps of it what it takes off the due. -/
structure Ledger (P : Network → Prop) (β : Type) where
  kept : List (String × Except Failure ProbeMethod) → Network → List β
  due : String → Stage → List β
  stays {endpoint : String} {stage : Stage} {n : Network} (h : P n) : P (stage.next endpoint n).2
  connect {endpoint : String} {stage : Stage} {results : List (String × Except Failure ProbeMethod)}
    {n : Network} (h : P n) :
    kept results (stage.next endpoint n).2 ++ due endpoint (stage.next endpoint n).1 =
      kept results n ++ due endpoint stage
  finish {endpoint : String} {result : Except Failure ProbeMethod}
    {results : List (String × Except Failure ProbeMethod)} {n : Network} :
    kept (results ++ [(endpoint, result)]) n = kept results n ++ due endpoint (.done result)

namespace Ledger

variable {P : Network → Prop} {β : Type}

/-- What is kept and what is due, with the probes that have not begun. -/
def total (L : Ledger P β) (p : Probe) (o : Overlap) : List β :=
  L.kept o.results o.network ++ (o.flying.flatMap (fun probe => L.due probe.1 probe.2) ++
    o.waiting.flatMap fun endpoint => L.due endpoint (.begin p endpoint))

/-- A step moves what is owed, and neither adds nor loses any of it. -/
theorem perm_step (L : Ledger P β) (h : Step p slots o o') (hP : P o.network) :
    (L.total p o').Perm (L.total p o) := by
  cases h with
  | @begin before after endpoint flying results n hfree =>
    simp only [total, List.flatMap_append, List.flatMap_cons, List.flatMap_nil, List.append_nil,
      List.append_assoc]
    exact ((List.perm_append_comm_assoc _ _ _).append_left _).append_left _
  | @connect before after waiting endpoint stage results n hwork =>
    have hmove : ∀ kept due others later : List β,
        (kept ++ (others ++ (due ++ later))).Perm ((kept ++ due) ++ (others ++ later)) := by
      intro kept due others later
      rw [List.append_assoc]
      exact (List.perm_append_comm_assoc _ _ _).append_left kept
    simp only [total, List.flatMap_append, List.flatMap_cons, List.append_assoc]
    refine (hmove _ _ _ _).trans ?_
    rw [L.connect hP]
    exact (hmove _ _ _ _).symm
  | @finish before after waiting endpoint result results n =>
    simp only [total, List.flatMap_append, List.flatMap_cons, List.append_assoc, L.finish]
    exact (List.perm_append_comm_assoc _ _ _).append_left _

theorem perm_run (L : Ledger P β) (h : Runs p slots o o') (ho : P o.network) :
    P o'.network ∧ (L.total p o').Perm (L.total p o) := by
  induction h with
  | refl => exact ⟨ho, .refl _⟩
  | @tail later last _ hstep ih =>
    refine ⟨?_, (L.perm_step hstep ih.1).trans ih.2⟩
    cases hstep with
    | begin => exact ih.1
    | connect => exact L.stays ih.1
    | finish => exact ih.1

/-- What a cycle has kept at its end is what was owed at first. -/
theorem perm_kept (L : Ledger P β) (h : Runs p slots o o') (ho : P o.network) (hover : o'.Over) :
    (L.kept o'.results o'.network).Perm (L.total p o) := by
  simpa [total, hover.1, hover.2] using (L.perm_run h ho).2

end Ledger

/-- The endpoints with a result. -/
def endpoints : Ledger (fun _ => True) String where
  kept results _ := results.map (·.1)
  due endpoint _ := [endpoint]
  stays _ := trivial
  connect _ := rfl
  finish := List.map_append

/-- Each endpoint of the snapshot has one result at the end. -/
theorem perm_endpoints {s : Store} {n : Network} (h : Runs p slots (.begin s n) o) (hover : o.Over) :
    (o.results.map (·.1)).Perm s.snapshot := by
  simpa [endpoints, Ledger.total, begin] using endpoints.perm_kept h trivial hover

theorem map_fst_verdicts (o : Overlap) : o.cycle.verdicts.map (·.1) = o.results.map (·.1) :=
  List.map_map

/-- No endpoint has two verdicts. -/
theorem nodup_verdicts {s : Store} {n : Network} (h : Runs p slots (.begin s n) o) (hover : o.Over) :
    (o.cycle.verdicts.map (·.1)).Nodup := by
  rw [map_fst_verdicts, (perm_endpoints h hover).nodup_iff]
  exact nodup_distinct _

end Overlap

end ZonePool

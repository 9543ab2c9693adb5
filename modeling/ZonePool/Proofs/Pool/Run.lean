-- SUMMARY: Runs of a pool in any interleaving of its callers and its monitor.
import ZonePool.Proofs.Pool.Action

/-!
# Runs of a pool

A run is a list of actions, which covers every interleaving of those who act.
All that a run does to the store is the run of the store on the events of its
actions, so a property of the store needs a proof for five events only.
-/

namespace ZonePool.Pool

/-! ## Runs -/

/-- Several actions one after another. -/
def run (p : Pool) (actions : List Action) : Pool :=
  actions.foldl act p

@[simp] theorem run_nil (p : Pool) : p.run [] = p := rfl

@[simp] theorem run_cons (p : Pool) (a : Action) (actions : List Action) :
    p.run (a :: actions) = (p.act a).run actions := rfl

theorem run_append (p : Pool) (first second : List Action) :
    p.run (first ++ second) = (p.run first).run second :=
  List.foldl_append

/-- Some actions lead from one pool to the other. -/
def Reaches (p q : Pool) : Prop :=
  ∃ actions, p.run actions = q

theorem Reaches.refl (p : Pool) : Reaches p p := ⟨[], rfl⟩

theorem Reaches.trans {p q r : Pool} : Reaches p q → Reaches q r → Reaches p r := by
  rintro ⟨first, rfl⟩ ⟨second, rfl⟩
  exact ⟨first ++ second, run_append p first second⟩

theorem reaches_act (p : Pool) (a : Action) : Reaches p (p.act a) := ⟨[a], rfl⟩

/-- Some actions lead to the pool from one that has just been made. -/
def Reachable (p : Pool) : Prop :=
  ∃ addresses options env, Reaches (create addresses options env) p

theorem Reachable.reaches {p q : Pool} (h : p.Reachable) (hpq : Reaches p q) : q.Reachable := by
  obtain ⟨addresses, options, env, hp⟩ := h
  exact ⟨addresses, options, env, hp.trans hpq⟩

/-! ## The store of a run -/

/-- The events of a run. -/
def trace (p : Pool) : List Action → List Store.Event
  | [] => []
  | a :: actions => p.events a ++ (p.act a).trace actions

/-- The store after a run is the run of the store on the events. -/
theorem store_run (p : Pool) (actions : List Action) :
    (p.run actions).store = p.store.run (p.trace actions) := by
  induction actions generalizing p with
  | nil => rfl
  | cons a actions ih => rw [run_cons, ih, trace, Store.run_append, store_act]

end ZonePool.Pool

-- SUMMARY: The events of a store, and what each of them changes.
import Mathlib.Data.List.DropRight
import ZonePool.Store
import ZonePool.Zones
import ZonePool.Proofs.KeyMap

/-!
# Events of a store

A store changes by five events, each of them one step on the whole value. This
module says what every event does to each part of a store; properties of whole
runs follow from these by induction over the events.
-/

namespace ZonePool.Store

/-! ## What a commit keeps -/

/-- The part of a status that is about members. -/
def kept (s : Store) (status : StatusMap) : StatusMap :=
  status.restrict (s.tiers.members.contains ·)

theorem get?_kept {s : Store} {status : StatusMap} {endpoint : String} {v : Verdict} :
    (s.kept status).get? endpoint = some v ↔
      endpoint ∈ s.tiers.members ∧ status.get? endpoint = some v := by
  simp [kept, KeyMap.get?_restrict]

theorem commit_of_stopped {s : Store} (h : s.lifecycle = .stopped) (status : StatusMap) :
    s.commit status = (false, s) := by
  simp [commit, h]

theorem commit_of_not_stopped {s : Store} (h : s.lifecycle ≠ .stopped) (status : StatusMap) :
    s.commit status =
      (true, { s with
        status := s.kept status, history := (s.history ++ [s.kept status]).rtake 3 }) := by
  simp [commit, h, kept, trim, historyLimit, List.rtake]

@[simp] theorem tiers_commit (s : Store) (status : StatusMap) :
    (s.commit status).2.tiers = s.tiers := by
  unfold commit
  split <;> rfl

@[simp] theorem lifecycle_commit (s : Store) (status : StatusMap) :
    (s.commit status).2.lifecycle = s.lifecycle := by
  unfold commit
  split <;> rfl

/-! ## What starting and stopping change -/

theorem start_of_idle {s : Store} (h : s.lifecycle = .idle) :
    s.start = (true, { s with lifecycle := .running }) := by
  simp [start, h]

theorem start_of_not_idle {s : Store} (h : s.lifecycle ≠ .idle) : s.start = (false, s) := by
  unfold start
  split
  · next hidle => exact absurd hidle h
  · rfl

theorem start_eq (s : Store) :
    s.start.2 = { s with
      lifecycle := if s.lifecycle = .idle then .running else s.lifecycle } := by
  by_cases h : s.lifecycle = .idle
  · simp [start_of_idle h, h]
  · simp [start_of_not_idle h, h]

theorem stop_eq (s : Store) : s.stop.2 = { s with lifecycle := .stopped } := by
  obtain ⟨tiers, status, history, lifecycle⟩ := s
  cases lifecycle <;> rfl

/-! ## Events -/

inductive Event where
  | reset (addresses : List String)
  /-- The zones that a directory lists are sorted into the zone tiers. -/
  | resync (zones : Zones)
  | commit (status : StatusMap)
  | start
  | stop

def apply (s : Store) : Event → Store
  | .reset addresses => s.reset addresses
  | .resync zones =>
    let c := Classification.ofZones zones s.tiers.default
    s.assign c.sameAzMembers c.diffAzMembers
  | .commit status => (s.commit status).2
  | .start => s.start.2
  | .stop => s.stop.2

@[simp] theorem lifecycle_reset (s : Store) (addresses : List String) :
    (s.reset addresses).lifecycle = s.lifecycle := rfl

@[simp] theorem lifecycle_apply_resync (s : Store) (zones : Zones) :
    (s.apply (.resync zones)).lifecycle = s.lifecycle := rfl

@[simp] theorem lifecycle_apply_commit (s : Store) (status : StatusMap) :
    (s.apply (.commit status)).lifecycle = s.lifecycle :=
  lifecycle_commit s status

/-- Several events one after another. -/
def run (s : Store) (events : List Event) : Store :=
  events.foldl apply s

@[simp] theorem run_nil (s : Store) : s.run [] = s := rfl

@[simp] theorem run_cons (s : Store) (e : Event) (events : List Event) :
    s.run (e :: events) = (s.apply e).run events := rfl

theorem run_append (s : Store) (first second : List Event) :
    s.run (first ++ second) = (s.run first).run second :=
  List.foldl_append

/-- What every event keeps holds after every run. -/
theorem run_induction {P : Store → Prop} (hstep : ∀ s e, P s → P (s.apply e)) {s : Store} (h : P s)
    (events : List Event) : P (s.run events) := by
  induction events generalizing s with
  | nil => exact h
  | cons e events ih => exact ih (hstep s e h)

/-- A store that has left the idle state does not come back to it. -/
theorem started_apply {s : Store} (h : s.lifecycle ≠ .idle) (e : Event) :
    (s.apply e).lifecycle ≠ .idle := by
  cases e with
  | reset addresses => exact h
  | resync zones => exact h
  | commit status => rwa [apply, lifecycle_commit]
  | start => rwa [apply, start_of_not_idle h]
  | stop =>
    rw [apply, stop_eq]
    exact nofun

theorem started_run {s : Store} (h : s.lifecycle ≠ .idle) (events : List Event) :
    (s.run events).lifecycle ≠ .idle :=
  run_induction (P := fun s => s.lifecycle ≠ .idle) (fun _ e h => started_apply h e) h events

end ZonePool.Store

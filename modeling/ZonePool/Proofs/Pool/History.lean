-- SUMMARY: The history of a pool is the end of the log of its installed statuses.
import ZonePool.Admin
import ZonePool.Proofs.Pool.Run
import ZonePool.Proofs.Readiness

/-!
# The log of a run

A pool keeps only the last few statuses. The log of a run keeps all that were
installed since the last reset, each as it was filtered at its own commit. The
history is the end of the log in every state, so the status, the readiness and
the readiness page are functions of the log.
-/

namespace ZonePool

namespace Store

/-! ## The log -/

/-- The log after one more event; a commit that the store does not take adds nothing. -/
def logStep (s : Store) (log : List StatusMap) : Event → List StatusMap
  | .reset _ => []
  | .commit status => if (s.commit status).1 then log ++ [s.kept status] else log
  | .resync _ | .start | .stop => log

/-- The log after some more events. -/
def logFrom (s : Store) (log : List StatusMap) : List Event → List StatusMap
  | [] => log
  | e :: events => (s.apply e).logFrom (s.logStep log e) events

/-- The store keeps the end of the log. -/
structure Keeps (s : Store) (log : List StatusMap) : Prop where
  history : s.history = log.rtake historyLimit
  status : s.status = log.getLast?.getD .empty

theorem keeps_apply {s : Store} {log : List StatusMap} (h : s.Keeps log) (e : Event) :
    (s.apply e).Keeps (s.logStep log e) := by
  cases e with
  | reset addresses => exact ⟨rfl, rfl⟩
  | resync zones => exact ⟨h.history, h.status⟩
  | commit status =>
    by_cases hstopped : s.lifecycle = .stopped
    · simpa [apply, logStep, commit_of_stopped hstopped] using h
    · rw [apply, logStep, commit_of_not_stopped hstopped]
      refine ⟨?_, by simp⟩
      -- Only two of the statuses kept so far remain beside the new one.
      simp [h.history, historyLimit, List.rtake_concat_succ, Readiness.rtake_rtake]
  | start =>
    rw [apply, logStep, start_eq]
    exact ⟨h.history, h.status⟩
  | stop =>
    rw [apply, logStep, stop_eq]
    exact ⟨h.history, h.status⟩

theorem keeps_run {s : Store} {log : List StatusMap} (h : s.Keeps log) (events : List Event) :
    (s.run events).Keeps (s.logFrom log events) := by
  induction events generalizing s log with
  | nil => exact h
  | cons e events ih => exact ih (keeps_apply h e)

end Store

namespace Pool

/-- The statuses that a run of a new pool installs after its last reset, oldest first. -/
def log (p : Pool) (actions : List Action) : List StatusMap :=
  p.store.logFrom [] (p.trace actions)

theorem keeps_create_run (addresses : List String) (options : PoolOptions) (env : Environment)
    (actions : List Action) :
    ((create addresses options env).run actions).store.Keeps
      ((create addresses options env).log actions) := by
  rw [store_run]
  exact Store.keeps_run ⟨rfl, rfl⟩ _

/-! ## Readiness -/

section

variable {p : Pool} {log : List StatusMap}

theorem length_history (h : p.store.Keeps log) : p.store.history.length = min 3 log.length := by
  rw [h.history, Readiness.length_rtake]
  rfl

theorem readiness_eq_success_iff (h : p.store.Keeps log) :
    p.readiness = .success ↔ 2 ≤ log.length ∧ ∀ status ∈ log.rtake 2, status.HasAvailable := by
  have hlast : p.store.history.rtake 2 = log.rtake 2 := by
    rw [h.history, Readiness.rtake_rtake (by decide)]
  have hlength := length_history h
  have hlong : 2 ≤ p.store.history.length ↔ 2 ≤ log.length := by omega
  rw [readiness, Readiness.ofHistory_eq_success_iff, hlast, hlong]

theorem readiness_eq_failed_iff (h : p.store.Keeps log) :
    p.readiness = .failed ↔ 3 ≤ log.length ∧ ∀ status ∈ log.rtake 3, ¬status.HasAvailable := by
  have hlength := length_history h
  have hlimit : historyLimit = 3 := rfl
  have hlong : historyLimit ≤ p.store.history.length ↔ 3 ≤ log.length := by omega
  rw [readiness, Readiness.ofHistory_eq_failed_iff_of_length_le (by omega), hlong, h.history]
  rfl

end

/-! ## The readiness page -/

/-- The page fails with the pool, and shows how many of the last statuses there are. -/
theorem serve_ready {p : Pool} {log : List StatusMap} (h : p.store.Keeps log) {target : String}
    (htarget : Admin.pathOf target = "/ready" ∨ Admin.pathOf target = "/readyz")
    (recording : Bool) :
    Admin.serve target recording p =
      (Admin.jsonPage (if p.readiness = .failed then 503 else 200)
        (.ofMembers [("history", .whole (min 3 log.length)), ("status", .text p.readiness.name)]),
      p) := by
  have hother : ¬(Admin.pathOf target = "/health" ∨ Admin.pathOf target = "/healthz") := by
    rcases htarget with h | h <;> simp [h]
  rw [Admin.serve, Admin.route, if_neg hother, if_pos htarget, Admin.readyPage, Admin.readyBody,
    length_history h]

/-! ## The law of a run -/

/-- History, status, readiness and readiness page of every run are read off its log. -/
theorem readiness_run (addresses : List String) (options : PoolOptions) (env : Environment)
    (actions : List Action) :
    let p := (create addresses options env).run actions
    let log := (create addresses options env).log actions
    p.store.history = log.rtake 3 ∧ p.store.history.length = min 3 log.length ∧
    p.store.status = log.getLast?.getD .empty ∧
    (p.readiness = .success ↔
      2 ≤ log.length ∧ ∀ status ∈ log.rtake 2, status.HasAvailable) ∧
    (p.readiness = .failed ↔
      3 ≤ log.length ∧ ∀ status ∈ log.rtake 3, ¬status.HasAvailable) ∧
    (p.readiness = .indeterminate ↔
      ¬(2 ≤ log.length ∧ ∀ status ∈ log.rtake 2, status.HasAvailable) ∧
      ¬(3 ≤ log.length ∧ ∀ status ∈ log.rtake 3, ¬status.HasAvailable)) ∧
    ∀ target recording, Admin.pathOf target = "/ready" ∨ Admin.pathOf target = "/readyz" →
      Admin.serve target recording p =
        (Admin.jsonPage (if p.readiness = .failed then 503 else 200)
          (.ofMembers [("history", .whole (min 3 log.length)), ("status", .text p.readiness.name)]),
        p) := by
  intro p log
  have hkeeps : p.store.Keeps log := keeps_create_run addresses options env actions
  have hsuccess := readiness_eq_success_iff hkeeps
  have hfailed := readiness_eq_failed_iff hkeeps
  refine ⟨hkeeps.history, length_history hkeeps, hkeeps.status, hsuccess, hfailed, ?_,
    fun _ recording htarget => serve_ready hkeeps htarget recording⟩
  rw [← hsuccess, ← hfailed]
  cases p.readiness with
  | success | failed | indeterminate => simp

/-- Three cycles in a row that find nothing available make the page fail. -/
theorem readiness_run_of_three_down :
    let p := (create ["10.0.0.1:80"] {} .empty).run
      [.commit ⟨[], []⟩, .commit ⟨[], []⟩, .commit ⟨[], []⟩]
    p.readiness = .failed ∧ (Admin.serve "/ready?verbose" false p).1.status = 503 := by
  intro p
  obtain ⟨-, -, -, -, hfailed, -, hpage⟩ := readiness_run ["10.0.0.1:80"] {} .empty
    [.commit ⟨[], []⟩, .commit ⟨[], []⟩, .commit ⟨[], []⟩]
  have hdown : p.readiness = .failed := by
    refine hfailed.2 ⟨by decide, fun status hmem => ?_⟩
    have hempty : status = .empty := List.eq_of_mem_replicate (n := 3) hmem
    rintro ⟨endpoint, hget⟩
    rw [hempty, KeyMap.get?_empty] at hget
    cases hget
  have htarget : Admin.pathOf "/ready?verbose" = "/ready" := by decide
  rw [hpage _ _ (.inl htarget), hdown]
  exact ⟨rfl, rfl⟩

end Pool

end ZonePool

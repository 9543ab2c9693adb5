-- SUMMARY: Readiness as a law on the last statuses of a history.
import Mathlib.Data.List.DropRight
import ZonePool.Readiness
import ZonePool.Proofs.KeyMap

/-!
# The law of readiness

The scan over a history keeps the lengths of two runs. These are the longest
runs of statuses of each kind at the end of the history, so a bound on one of
them says what the last few statuses are.
-/

namespace ZonePool

/-- Whether an endpoint of the status is available. -/
def StatusMap.HasAvailable (status : StatusMap) : Prop :=
  ∃ endpoint, status.get? endpoint = some .available

theorem StatusMap.anyUp_iff {status : StatusMap} : status.anyUp = true ↔ status.HasAvailable := by
  simp only [anyUp, List.any_eq_true, KeyMap.mem_values_iff]
  constructor
  · rintro ⟨v, ⟨endpoint, hget⟩, hv⟩
    cases v with
    | available => exact ⟨endpoint, hget⟩
    | unavailable => cases hv
  · rintro ⟨endpoint, hget⟩
    exact ⟨.available, ⟨endpoint, hget⟩, rfl⟩

namespace Readiness

/-! ## Runs at the end of a list -/

variable {α : Type}

theorem rtake_rtake {l : List α} {m n : Nat} (h : n ≤ m) : (l.rtake m).rtake n = l.rtake n := by
  simp only [List.rtake, List.drop_drop, List.length_drop]
  congr 1
  omega

theorem length_rtake {l : List α} {n : Nat} : (l.rtake n).length = min n l.length := by
  simp only [List.rtake, List.length_drop]
  omega

/-- The run at the end of a list is as long as the last members that are all of its kind. -/
theorem le_length_rtakeWhile {p : α → Bool} {l : List α} {n : Nat} :
    n ≤ (l.rtakeWhile p).length ↔ n ≤ l.length ∧ ∀ x ∈ l.rtake n, p x = true := by
  induction l using List.reverseRecOn generalizing n with
  | nil => simp
  | append_singleton l x ih =>
    cases n with
    | zero => simp
    | succ n =>
      rw [List.rtakeWhile_concat, List.rtake_concat_succ]
      by_cases hx : p x = true
      · rw [if_pos hx, List.length_append, List.length_append]
        simp only [List.length_singleton, Nat.add_le_add_iff_right, ih, List.mem_append,
          List.mem_singleton]
        simp [or_imp, forall_and, hx]
      · simp [hx]

/-! ## The scan -/

theorem foldl_see (history : List StatusMap) :
    history.foldl Runs.see {} =
      ⟨(history.rtakeWhile (·.anyUp)).length, (history.rtakeWhile (!·.anyUp)).length⟩ := by
  induction history using List.reverseRecOn with
  | nil => rfl
  | append_singleton history status ih =>
    rw [List.foldl_append, ih, List.foldl_cons, List.foldl_nil, Runs.see,
      List.rtakeWhile_concat, List.rtakeWhile_concat]
    cases status.anyUp with
    | true => simp
    | false => simp

/-- A list does not end in a run of either kind. -/
theorem rtakeWhile_not_eq_nil {p : α → Bool} {l : List α} (h : l.rtakeWhile (!p ·) ≠ []) :
    l.rtakeWhile p = [] := by
  induction l using List.reverseRecOn with
  | nil => rfl
  | append_singleton l x ih =>
    rw [List.rtakeWhile_concat] at h ⊢
    cases hx : p x with
    | true => simp [hx] at h
    | false => simp

/-! ## The law -/

/-- A history of fewer than two statuses is too short for either run. -/
theorem ofHistory_eq (history : List StatusMap) :
    ofHistory history =
      if 2 ≤ (history.rtakeWhile (·.anyUp)).length then .success
      else if (history.rtakeWhile (!·.anyUp)).length = historyLimit then .failed
      else .indeterminate := by
  unfold ofHistory
  rw [foldl_see]
  by_cases hshort : history.length < 2
  · have hup := (history.rtakeWhile_suffix (·.anyUp)).length_le
    have hdown := (history.rtakeWhile_suffix (!·.anyUp)).length_le
    have hlimit : historyLimit = 3 := rfl
    rw [if_pos hshort, if_neg (by omega), if_neg (by omega)]
  · rw [if_neg hshort]

theorem ofHistory_eq_success_iff {history : List StatusMap} :
    ofHistory history = .success ↔
      2 ≤ history.length ∧ ∀ status ∈ history.rtake 2, status.HasAvailable := by
  simp only [← StatusMap.anyUp_iff]
  rw [← le_length_rtakeWhile (p := StatusMap.anyUp), ofHistory_eq]
  constructor
  · intro h
    split at h
    · next hup => exact hup
    · split at h <;> cases h
  · intro hup
    rw [if_pos hup]

theorem ofHistory_eq_failed_iff {history : List StatusMap} :
    ofHistory history = .failed ↔ (history.rtakeWhile (!·.anyUp)).length = historyLimit := by
  rw [ofHistory_eq]
  constructor
  · intro h
    split at h
    · cases h
    · split at h
      · next hdown => exact hdown
      · cases h
  · intro hdown
    have hup : history.rtakeWhile StatusMap.anyUp = [] := by
      refine rtakeWhile_not_eq_nil fun hnil => ?_
      rw [hnil] at hdown
      cases hdown
    rw [hup, if_neg (by simp), if_pos hdown]

/-- A history within the limit has failed when it is full and nothing in it is available. -/
theorem ofHistory_eq_failed_iff_of_length_le {history : List StatusMap}
    (h : history.length ≤ historyLimit) :
    ofHistory history = .failed ↔
      historyLimit ≤ history.length ∧ ∀ status ∈ history, ¬status.HasAvailable := by
  have hrun := (history.rtakeWhile_suffix (!·.anyUp)).length_le
  have hall : history.rtake historyLimit = history := by
    rw [List.rtake, Nat.sub_eq_zero_of_le h, List.drop_zero]
  have hfull : (history.rtakeWhile (!·.anyUp)).length = historyLimit ↔
      historyLimit ≤ (history.rtakeWhile (!·.anyUp)).length := by omega
  rw [ofHistory_eq_failed_iff, hfull, le_length_rtakeWhile, hall]
  simp [← StatusMap.anyUp_iff]

/-! ## The end of a history -/

/-- The last two statuses each have an available endpoint. -/
def EndsUp (history : List StatusMap) : Prop :=
  ∃ earlier a b, history = earlier ++ [a, b] ∧ a.HasAvailable ∧ b.HasAvailable

theorem ofHistory_eq_success_iff_endsUp {history : List StatusMap} :
    ofHistory history = .success ↔ EndsUp history := by
  rw [ofHistory_eq_success_iff]
  constructor
  · rintro ⟨hlength, hup⟩
    obtain ⟨a, b, htwo⟩ : ∃ a b, history.rtake 2 = [a, b] := by
      rw [← List.length_eq_two, length_rtake]
      omega
    refine ⟨history.take (history.length - 2), a, b, ?_, hup a (by simp [htwo]), hup b (by simp [htwo])⟩
    rw [← htwo, List.rtake, List.take_append_drop]
  · rintro ⟨earlier, a, b, rfl, ha, hb⟩
    have hlast : (earlier ++ [a, b]).rtake 2 = [a, b] := by simp [List.rtake]
    rw [hlast]
    exact ⟨by simp, by simp [ha, hb]⟩

/-- The longest run of statuses without an available endpoint at the end of a history. -/
structure DownRun (history run : List StatusMap) : Prop where
  suffix : run <:+ history
  down : ∀ status ∈ run, ¬status.HasAvailable
  longest : ∀ other, other <:+ history → (∀ status ∈ other, ¬status.HasAvailable) → other <:+ run

theorem downRun_rtakeWhile (history : List StatusMap) :
    DownRun history (history.rtakeWhile (!·.anyUp)) where
  suffix := List.rtakeWhile_suffix _ _
  down status hstatus := by
    have hdown := List.mem_rtakeWhile_imp hstatus
    rw [← StatusMap.anyUp_iff]
    simpa using hdown
  longest other hsuffix hdown := by
    have hend : history.rtake other.length = other := (List.suffix_iff_eq_drop.1 hsuffix).symm
    have hlength : other.length ≤ (history.rtakeWhile (!·.anyUp)).length := by
      rw [le_length_rtakeWhile, hend]
      refine ⟨hsuffix.length_le, fun status hstatus => ?_⟩
      simpa [← StatusMap.anyUp_iff] using hdown status hstatus
    exact List.suffix_of_suffix_length_le hsuffix (List.rtakeWhile_suffix _ _) hlength

/-- A pool is ready when its last two statuses have an available endpoint each, has failed when the
run of statuses without one at the end of its history is exactly three long, and is undecided
otherwise, so also when that run is longer. -/
theorem ofHistory_of_end (history : List StatusMap) :
    ∃ run, DownRun history run ∧
      (ofHistory history = .success ↔ EndsUp history) ∧
      (ofHistory history = .failed ↔ run.length = 3) ∧
      (ofHistory history = .indeterminate ↔ ¬EndsUp history ∧ run.length ≠ 3) ∧
      (3 < run.length → ofHistory history = .indeterminate) := by
  have hfailed : ofHistory history = .failed ↔ (history.rtakeWhile (!·.anyUp)).length = 3 :=
    ofHistory_eq_failed_iff
  refine ⟨_, downRun_rtakeWhile history, ofHistory_eq_success_iff_endsUp, hfailed, ?otherwise, ?longer⟩
  case otherwise =>
    rw [← ofHistory_eq_success_iff_endsUp, ne_eq, ← hfailed]
    cases ofHistory history <;> simp
  case longer =>
    intro hlonger
    have hup : history.rtakeWhile (·.anyUp) = [] := by
      refine rtakeWhile_not_eq_nil fun hnil => ?_
      simp [hnil] at hlonger
    rw [ofHistory_eq, hup, if_neg (by simp), if_neg (Nat.ne_of_gt hlonger : _ ≠ historyLimit)]

/-- Nothing was available for four cycles: that is one too many. -/
theorem ofHistory_of_end_of_four_down :
    let down : StatusMap := .ofList [("a:1", .unavailable), ("b:1", .unavailable)]
    ofHistory [down, down, down, down] = .indeterminate := by
  intro down
  have hdown : ¬down.HasAvailable := by
    rw [← StatusMap.anyUp_iff]
    decide
  obtain ⟨run, hrun, -, -, -, hlonger⟩ := ofHistory_of_end [down, down, down, down]
  have hwhole : [down, down, down, down] <:+ run := by
    refine hrun.longest _ List.suffix_rfl fun status hstatus => ?_
    simp only [List.mem_cons, List.not_mem_nil, or_false, or_self] at hstatus
    rwa [hstatus]
  exact hlonger hwhole.length_le

end Readiness

end ZonePool

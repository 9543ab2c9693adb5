-- SUMMARY: Which addresses are candidates, as a law on tiers and status.
import ZonePool.Selection
import ZonePool.Proofs.KeyMap

/-!
# Candidates

Tiers and status change independently, so a status may be about addresses that
are no members and say nothing about members. The candidates are still members
in every case: those on record as available in the first tier that has one, or
else the members of `Default`.
-/

namespace ZonePool

theorem StatusMap.isUp_iff {status : StatusMap} {endpoint : String} :
    status.isUp endpoint = true ↔ status.get? endpoint = some .available := by
  unfold isUp
  cases status.get? endpoint with
  | none => simp
  | some v => cases v <;> simp [Verdict.isAvailable]

theorem Tier.mem_priority (tier : Tier) : tier ∈ Tier.priority := by
  cases tier <;> decide

namespace Tiers

variable {t : Tiers} {status : StatusMap}

theorem mem_availableIn {tier : Tier} {a : String} :
    a ∈ t.availableIn status tier ↔ a ∈ t.get tier ∧ status.get? a = some .available := by
  rw [availableIn, List.mem_filter, StatusMap.isUp_iff]

theorem firstAvailable_eq_none_iff {tiers : List Tier} :
    t.firstAvailable status tiers = none ↔ ∀ tier ∈ tiers, t.availableIn status tier = [] := by
  induction tiers with
  | nil => simp [firstAvailable]
  | cons tier rest ih =>
    rw [firstAvailable, List.forall_mem_cons]
    cases t.availableIn status tier with
    | nil => simp [ih]
    | cons first more => simp

/-- The tier that was found has an available member, and none before it has one. -/
theorem firstAvailable_eq_some {tiers : List Tier} {found : List String}
    (h : t.firstAvailable status tiers = some found) :
    ∃ before tier after, tiers = before ++ tier :: after ∧ found = t.availableIn status tier ∧
      found ≠ [] ∧ ∀ earlier ∈ before, t.availableIn status earlier = [] := by
  induction tiers with
  | nil => cases h
  | cons tier rest ih =>
    rw [firstAvailable] at h
    cases havailable : t.availableIn status tier with
    | nil =>
      rw [havailable] at h
      obtain ⟨before, later, after, rfl, hfound, hne, hnone⟩ := ih h
      refine ⟨tier :: before, later, after, rfl, hfound, hne, ?_⟩
      rw [List.forall_mem_cons]
      exact ⟨havailable, hnone⟩
    | cons first more =>
      rw [havailable] at h
      cases h
      refine ⟨[], tier, rest, rfl, havailable.symm, List.cons_ne_nil _ _, ?_⟩
      exact fun earlier hmem => absurd hmem List.not_mem_nil

/-! ## The two ways to be a candidate -/

theorem candidates_of_available
    (h : ∃ tier, ∃ a ∈ t.get tier, status.get? a = some .available) :
    ∃ before tier after, Tier.priority = before ++ tier :: after ∧
      t.candidates status = t.availableIn status tier ∧ t.candidates status ≠ [] ∧
      ∀ earlier ∈ before, t.availableIn status earlier = [] := by
  obtain ⟨up, a, hmem, hget⟩ := h
  rw [candidates]
  cases hfirst : t.firstAvailable status Tier.priority with
  | none =>
    have hnone := firstAvailable_eq_none_iff.1 hfirst up (Tier.mem_priority up)
    have hup : a ∈ t.availableIn status up := mem_availableIn.2 ⟨hmem, hget⟩
    rw [hnone] at hup
    cases hup
  | some found => exact firstAvailable_eq_some hfirst

theorem candidates_of_none_available
    (h : ¬∃ tier, ∃ a ∈ t.get tier, status.get? a = some .available) :
    t.candidates status = t.default := by
  have hnone : t.firstAvailable status Tier.priority = none := by
    rw [firstAvailable_eq_none_iff]
    intro tier _
    rw [List.eq_nil_iff_forall_not_mem]
    intro a hmem
    exact h ⟨tier, a, mem_availableIn.1 hmem⟩
  rw [candidates, hnone, Option.getD_none]

end Tiers

/-! ## Taking turns -/

namespace Turn

/-- The turn goes to a candidate, whatever the count is. -/
theorem pick_mem (turn : Turn) {candidates : List String} (h : candidates ≠ []) :
    ∃ a ∈ candidates, (turn.pick candidates).1 = some a := by
  cases candidates with
  | nil => exact absurd rfl h
  | cons first more =>
    have hlt : turn.count.toNat % (first :: more).length < (first :: more).length :=
      Nat.mod_lt _ (Nat.succ_pos _)
    exact ⟨_, List.getElem_mem hlt, List.getElem?_eq_getElem hlt⟩

end Turn

end ZonePool

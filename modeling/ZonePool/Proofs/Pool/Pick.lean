-- SUMMARY: What a reachable pool hands out.
import ZonePool.Proofs.Pool.Placement
import ZonePool.Proofs.Selection

/-!
# Picks

A pick is an available member of the most preferred tier that has one. Without
one it is a member of `Default`, available or not, so that a pool that has just
been reset or resynced hands out something; only a pool without members of
`Default` and `SameAz` has nothing to hand out.
-/

namespace ZonePool.Pool

theorem fst_pick (p : Pool) : p.pick.1 = (p.turn.pick p.candidates).1.getD "" := rfl

theorem fst_pick_mem {p : Pool} (h : p.candidates ≠ []) : p.pick.1 ∈ p.candidates := by
  obtain ⟨a, hmem, hpick⟩ := p.turn.pick_mem h
  rwa [fst_pick, hpick, Option.getD_some]

theorem fst_pick_of_nil {p : Pool} (h : p.candidates = []) : p.pick.1 = "" := by
  rw [fst_pick, h]
  rfl

theorem pick_of_available {p : Pool}
    (h : ∃ tier, ∃ a ∈ p.store.tiers.get tier, p.store.status.get? a = some .available) :
    p.store.status.get? p.pick.1 = some .available ∧
      ∃ before tier after, [.sameAz, .diffAz, .default] = before ++ tier :: after ∧
        p.pick.1 ∈ p.store.tiers.get tier ∧
        ∀ earlier ∈ before, ∀ a ∈ p.store.tiers.get earlier,
          p.store.status.get? a ≠ some .available := by
  obtain ⟨before, tier, after, horder, hfound, hne, hnone⟩ := Tiers.candidates_of_available h
  have hmem := fst_pick_mem hne
  rw [candidates, hfound, Tiers.mem_availableIn] at hmem
  refine ⟨hmem.2, before, tier, after, horder, hmem.1, ?_⟩
  intro earlier hearlier a ha hget
  have hup := Tiers.mem_availableIn.2 ⟨ha, hget⟩
  rw [hnone earlier hearlier] at hup
  cases hup

theorem pick_of_none_available {p : Pool}
    (h : ¬∃ tier, ∃ a ∈ p.store.tiers.get tier, p.store.status.get? a = some .available) :
    p.pick.1 ∈ p.store.tiers.default ∨ p.store.tiers.default = [] ∧ p.pick.1 = "" := by
  have hdefault : p.candidates = p.store.tiers.default := Tiers.candidates_of_none_available h
  by_cases hnil : p.candidates = []
  · exact .inr ⟨hdefault ▸ hnil, fst_pick_of_nil hnil⟩
  · exact .inl (hdefault ▸ fst_pick_mem hnil)

/-- Without candidates `Default` is empty, and then `SameAz` has nothing to share with it. -/
theorem tiers_of_no_candidates {p : Pool} (hreachable : p.Reachable) (h : p.candidates = []) :
    p.store.tiers.default = [] ∧ p.store.tiers.sameAz = [] := by
  have hdefault : p.store.tiers.default = [] := by
    by_cases hup : ∃ tier, ∃ a ∈ p.store.tiers.get tier, p.store.status.get? a = some .available
    · obtain ⟨-, -, -, -, -, hne, -⟩ := Tiers.candidates_of_available hup
      exact absurd h hne
    · rw [← h]
      exact (Tiers.candidates_of_none_available hup).symm
  obtain ⟨seed, hplaced⟩ := hreachable.wellPlaced
  refine ⟨hdefault, ?_⟩
  rcases hplaced.sameAz_shares with hnil | ⟨a, -, hshared⟩
  · exact hnil
  · rw [hdefault] at hshared
    cases hshared

/-- A pick is never an address outside the tiers. -/
theorem pick_mem_or_empty (p : Pool) :
    (∃ tier, p.pick.1 ∈ p.store.tiers.get tier) ∨ p.candidates = [] ∧ p.pick.1 = "" := by
  by_cases hup : ∃ tier, ∃ a ∈ p.store.tiers.get tier, p.store.status.get? a = some .available
  · obtain ⟨-, before, tier, after, -, hmem, -⟩ := pick_of_available hup
    exact .inl ⟨tier, hmem⟩
  · rcases pick_of_none_available hup with hmem | ⟨hdefault, hempty⟩
    · exact .inl ⟨.default, hmem⟩
    · exact .inr ⟨(Tiers.candidates_of_none_available hup).trans hdefault, hempty⟩

/-- Every pick of a reachable pool, whatever its status says and whatever the count of its turn. -/
theorem pick_of_reachable {p : Pool} (hreachable : p.Reachable) :
    ((∃ tier, ∃ a ∈ p.store.tiers.get tier, p.store.status.get? a = some .available) →
      p.store.status.get? p.pick.1 = some .available ∧
        ∃ before tier after, [.sameAz, .diffAz, .default] = before ++ tier :: after ∧
          p.pick.1 ∈ p.store.tiers.get tier ∧
          ∀ earlier ∈ before, ∀ a ∈ p.store.tiers.get earlier,
            p.store.status.get? a ≠ some .available) ∧
    ((¬∃ tier, ∃ a ∈ p.store.tiers.get tier, p.store.status.get? a = some .available) →
      p.pick.1 ∈ p.store.tiers.default ∨ p.store.tiers.default = [] ∧ p.pick.1 = "") ∧
    ((∃ tier, p.pick.1 ∈ p.store.tiers.get tier) ∨ p.candidates = [] ∧ p.pick.1 = "") ∧
    (p.candidates = [] →
      p.pick.1 = "" ∧ p.store.tiers.default = [] ∧ p.store.tiers.sameAz = []) := by
  refine ⟨pick_of_available, pick_of_none_available, pick_mem_or_empty p, fun hnil => ?_⟩
  exact ⟨fst_pick_of_nil hnil, tiers_of_no_candidates hreachable hnil⟩

/-- A pool goes on handing out what was available when it was closed. -/
theorem pick_of_reachable_of_closed :
    let p := (create ["10.0.0.1:80"] {} .empty).run
      [.commit ⟨[], [("10.0.0.1:80", .available)]⟩, .close]
    p.Reachable ∧ p.store.status.get? p.pick.1 = some .available := by
  intro p
  have hreachable : p.Reachable := ⟨_, _, _, _, rfl⟩
  have hup : ∃ tier, ∃ a ∈ p.store.tiers.get tier, p.store.status.get? a = some .available :=
    ⟨.default, "10.0.0.1:80", by decide, by decide⟩
  exact ⟨hreachable, ((pick_of_reachable hreachable).1 hup).1⟩

end ZonePool.Pool

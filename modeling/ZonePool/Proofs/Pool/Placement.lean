-- SUMMARY: How the tiers of a reachable pool are placed relative to each other.
import ZonePool.Proofs.Classification
import ZonePool.Proofs.Pool.Run

/-!
# Placement

The zone tiers are written by a resync and `Default` by a reset, so what one
tier has to do with another is up to the order of the two. It survives because
a resync sorts zones by the `Default` of that very moment, and a reset empties
both zone tiers along with it.
-/

namespace ZonePool

/-! ## Well-placed tiers -/

/-- No tier repeats a member, `SameAz` shares one with `Default`, and `DiffAz` shares none unless it
is the list that the pool was made with. -/
structure Tiers.WellPlaced (seed : List String) (t : Tiers) : Prop where
  nodup : ∀ tier, (t.get tier).Nodup
  sameAz_shares : t.sameAz = [] ∨ ∃ a ∈ t.sameAz, a ∈ t.default
  diffAz_apart : t.diffAz = seed ∨ t.diffAz = [] ∨ ∀ a ∈ t.diffAz, a ∉ t.default

namespace Store

theorem wellPlaced_create (default diffAz : List String) :
    (create default diffAz).tiers.WellPlaced (distinct diffAz) where
  nodup tier := by
    cases tier with
    | default => exact nodup_distinct default
    | sameAz => exact .nil
    | diffAz => exact nodup_distinct diffAz
  sameAz_shares := .inl rfl
  diffAz_apart := .inl rfl

theorem wellPlaced_reset (seed : List String) (s : Store) (addresses : List String) :
    (s.reset addresses).tiers.WellPlaced seed where
  nodup tier := by
    cases tier with
    | default => exact nodup_distinct addresses
    | sameAz | diffAz => exact .nil
  sameAz_shares := .inl rfl
  diffAz_apart := .inr (.inl rfl)

/-- Each bucket is replaced or kept on its own, and neither depends on the other. -/
theorem wellPlaced_assign {seed : List String} {s : Store} {c : Classification}
    (h : s.tiers.WellPlaced seed) (hfits : c.Fits s.tiers.default) :
    (s.assign c.sameAzMembers c.diffAzMembers).tiers.WellPlaced seed where
  nodup tier := by
    cases tier with
    | default => exact h.nodup .default
    | sameAz =>
      cases hsame : c.sameAzMembers with
      | none => exact h.nodup .sameAz
      | some members => exact hfits.nodup_sameAz members hsame
    | diffAz =>
      cases hdiff : c.diffAzMembers with
      | none => exact h.nodup .diffAz
      | some members => exact hfits.nodup_diffAz members hdiff
  sameAz_shares := by
    cases hsame : c.sameAzMembers with
    | none => exact h.sameAz_shares
    | some members => exact .inr (hfits.sameAz_shares members hsame)
  diffAz_apart := by
    cases hdiff : c.diffAzMembers with
    | none => exact h.diffAz_apart
    | some members => exact .inr (.inr (hfits.diffAz_apart members hdiff))

theorem wellPlaced_apply {seed : List String} {s : Store} (h : s.tiers.WellPlaced seed) (e : Event) :
    (s.apply e).tiers.WellPlaced seed := by
  cases e with
  | reset addresses => exact wellPlaced_reset seed s addresses
  | resync zones => exact wellPlaced_assign h (Classification.fits_ofZones zones s.tiers.default)
  | commit status => rwa [apply, tiers_commit]
  | start => rwa [apply, start_eq]
  | stop => rwa [apply, stop_eq]

theorem wellPlaced_run {seed : List String} {s : Store} (h : s.tiers.WellPlaced seed)
    (events : List Event) : (s.run events).tiers.WellPlaced seed :=
  run_induction (P := fun s => s.tiers.WellPlaced seed) (fun _ e h => wellPlaced_apply h e) h events

end Store

/-! ## Reachable pools -/

namespace Pool

theorem wellPlaced_create_run (addresses : List String) (options : PoolOptions) (env : Environment)
    (actions : List Action) :
    ((create addresses options env).run actions).store.tiers.WellPlaced (distinct options.diffAz) := by
  rw [store_run]
  exact Store.wellPlaced_run (Store.wellPlaced_create (distinct addresses) options.diffAz) _

/-- In every state of every run no tier repeats a member, `SameAz` stays on the side of `Default`,
and so does `DiffAz` on the other once anything has replaced its first members. -/
theorem tiers_run (addresses : List String) (options : PoolOptions) (env : Environment)
    (actions : List Action) :
    let t := ((create addresses options env).run actions).store.tiers
    (∀ tier, (t.get tier).Nodup) ∧
      (t.sameAz = [] ∨ ∃ a ∈ t.sameAz, a ∈ t.default) ∧
      (t.diffAz = distinct options.diffAz ∨ t.diffAz = [] ∨ ∀ a ∈ t.diffAz, a ∉ t.default) := by
  have hplaced := wellPlaced_create_run addresses options env actions
  exact ⟨hplaced.nodup, hplaced.sameAz_shares, hplaced.diffAz_apart⟩

theorem Reachable.wellPlaced {p : Pool} (h : p.Reachable) :
    ∃ seed, p.store.tiers.WellPlaced seed := by
  obtain ⟨addresses, options, env, actions, rfl⟩ := h
  exact ⟨_, wellPlaced_create_run addresses options env actions⟩

end Pool

end ZonePool

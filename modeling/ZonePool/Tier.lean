-- SUMMARY: The three tiers of addresses and their union.

/-!
# Tiers

The addresses of a pool stand in three tiers. `Default` holds what the pool was
given; `SameAz` and `DiffAz` hold what a directory places in the pool's own
availability zone and in another one.
-/

namespace ZonePool

/-! ## Lists without repetition -/

/-- Each address once, where it first occurs. -/
def distinct (addresses : List String) : List String :=
  addresses.eraseDups

@[simp] theorem distinct_nil : distinct [] = [] := rfl

theorem mem_distinct {a : String} {xs : List String} : a ∈ distinct xs ↔ a ∈ xs :=
  List.mem_eraseDups

theorem distinct_cons {a : String} {xs : List String} :
    distinct (a :: xs) = a :: distinct (xs.filter fun b => !b == a) :=
  List.eraseDups_cons

theorem nodup_distinct (xs : List String) : (distinct xs).Nodup := by
  match xs with
  | [] => exact .nil
  | a :: xs =>
    have hfresh : a ∉ distinct (xs.filter fun b => !b == a) := by
      simp [mem_distinct]
    rw [distinct_cons]
    exact List.nodup_cons.2 ⟨hfresh, nodup_distinct _⟩
termination_by xs.length
decreasing_by
  have := xs.length_filter_le fun b => !b == a
  simp only [List.length_cons]
  omega

/-! ## The tiers -/

inductive Tier where
  | default
  | sameAz
  | diffAz
  deriving DecidableEq, Repr

namespace Tier

/-- The order of selection, most preferred first. -/
def priority : List Tier := [.sameAz, .diffAz, .default]

def name : Tier → String
  | .default => "default"
  | .sameAz => "same_az"
  | .diffAz => "diff_az"

end Tier

/-- The members of the three tiers. -/
structure Tiers where
  default : List String := []
  sameAz : List String := []
  diffAz : List String := []
  deriving DecidableEq, Repr, Inhabited

namespace Tiers

/-- The members of one tier. -/
def get (t : Tiers) : Tier → List String
  | .default => t.default
  | .sameAz => t.sameAz
  | .diffAz => t.diffAz

/-- Every member of some tier. -/
def members (t : Tiers) : List String :=
  t.default ++ t.sameAz ++ t.diffAz

/-- Every member once: those of `Default`, then the new ones of `SameAz`, then those of `DiffAz`. -/
def union (t : Tiers) : List String :=
  distinct t.members

theorem mem_members {t : Tiers} {a : String} : a ∈ t.members ↔ ∃ tier, a ∈ t.get tier := by
  simp only [members, List.mem_append]
  constructor
  · rintro ((h | h) | h)
    · exact ⟨.default, h⟩
    · exact ⟨.sameAz, h⟩
    · exact ⟨.diffAz, h⟩
  · rintro ⟨tier, h⟩
    cases tier with
    | default => exact .inl (.inl h)
    | sameAz => exact .inl (.inr h)
    | diffAz => exact .inr h

theorem mem_union {t : Tiers} {a : String} : a ∈ t.union ↔ a ∈ t.members :=
  mem_distinct

end Tiers

end ZonePool
